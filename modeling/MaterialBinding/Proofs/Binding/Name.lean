import Mathlib.Data.List.Basic
import MaterialBinding.Binding.Name

/-!
# Names that a search reads

A search for a purpose knows its bindings by the names of their relationships alone: one name for
the direct binding, and any name from which a binding name can be read for collections.
`Purpose.reads` puts both together.

What is authored for `full` or `preview` has a name that no other purpose reads
(`reads_directName_of_ne`, `reads_collectionName_of_ne`).  The reason is the colon: the name of a
binding made for one purpose, seen from the namespace of every purpose, still has the purpose and a
colon in front.
-/

namespace MaterialBinding.Purpose

variable {purpose other : Purpose} {name binding : String}

/-- What the name of a relationship begins with if it binds a collection for the purpose. -/
def collectionLead (purpose : Purpose) : List Char := (purpose.collectionNamespace ++ ":").toList

/-- The name of a collection binding is the lead of its purpose and the binding name. -/
theorem toList_collectionName (purpose : Purpose) (binding : String) :
    (purpose.collectionName binding).toList = purpose.collectionLead ++ binding.toList := by
  rw [collectionName, String.toList_append, collectionLead]

/-- Collection bindings for one purpose are told apart by their binding names. -/
theorem collectionName_inj {one two : String} :
    purpose.collectionName one = purpose.collectionName two ↔ one = two := by
  rw [← String.toList_inj, toList_collectionName, toList_collectionName, List.append_cancel_left_eq,
    String.toList_inj]

/-- **A binding name is read from the names made of it**, and from no others; it is not empty and
has no colon. -/
theorem bindingName?_eq_some_iff :
    purpose.bindingName? name = some binding ↔
      name = purpose.collectionName binding ∧ binding ≠ "" ∧ ':' ∉ binding.toList := by
  have hname : name = purpose.collectionName binding ↔
      purpose.collectionLead ++ binding.toList = name.toList := by
    rw [← String.toList_inj, toList_collectionName, eq_comm]
  rw [hname, ← List.isPrefixOf?_eq_some_iff_append_eq, bindingName?, ← collectionLead]
  cases purpose.collectionLead.isPrefixOf? name.toList with
  | none => simp
  | some rest =>
      cases rest with
      | nil =>
          constructor
          · nofun
          · intro hall
            obtain ⟨heq, hempty, _⟩ := hall
            exact absurd (String.toList_inj.mp (Option.some.inj heq).symm) hempty
      | cons first rest =>
          constructor
          · intro hread
            simp only at hread
            by_cases hcolon : ':' ∈ first :: rest
            · rw [if_pos hcolon] at hread
              cases hread
            · rw [if_neg hcolon] at hread
              obtain rfl := Option.some.inj hread
              rw [String.toList_ofList]
              refine ⟨rfl, fun hempty => ?_, hcolon⟩
              have hnil := congrArg String.toList hempty
              rw [String.toList_ofList] at hnil
              cases hnil
          · intro hall
            obtain ⟨heq, _, hcolon⟩ := hall
            have hrest : first :: rest = binding.toList := Option.some.inj heq
            simp only [hrest, if_neg hcolon, String.ofList_toList]

/-- Each purpose has its own name for the direct binding. -/
theorem directName_inj : purpose.directName = other.directName ↔ purpose = other := by
  cases purpose <;> cases other <;> decide

/-- A direct binding is not taken for one of a collection. -/
theorem bindingName?_directName : purpose.bindingName? other.directName = none := by
  cases purpose <;> cases other <;> decide

/-- A binding of a collection is not taken for a direct one. -/
theorem collectionName_ne_directName : purpose.collectionName binding ≠ other.directName := by
  have hlead : ¬ purpose.collectionLead <+: other.directName.toList := by
    cases purpose <;> cases other <;> decide
  intro heq
  rw [← heq, toList_collectionName] at hlead
  exact hlead (List.prefix_append _ _)

/-- The lead of `full` or `preview` begins no lead of another purpose.  If it goes on after the
lead of another purpose, then with a text that has a colon. -/
theorem collectionLead_apart (hpurpose : purpose ≠ .allPurpose) (hne : other ≠ purpose) :
    ¬ purpose.collectionLead <+: other.collectionLead ∧
      (other.collectionLead <+: purpose.collectionLead →
        ':' ∈ purpose.collectionLead.drop other.collectionLead.length) := by
  revert hpurpose hne
  cases purpose <;> cases other <;> decide

/-- A binding of a collection for `full` or `preview` is taken for one of another purpose under no
binding name, not even under a name with colons. -/
theorem bindingName?_collectionName_of_ne (hpurpose : purpose ≠ .allPurpose)
    (hne : other ≠ purpose) : other.bindingName? (purpose.collectionName name) = none := by
  obtain ⟨hshort, hcolon⟩ := collectionLead_apart hpurpose hne
  rw [Option.eq_none_iff_forall_ne_some]
  intro binding hread
  obtain ⟨heq, _, hplain⟩ := bindingName?_eq_some_iff.mp hread
  have hchars : purpose.collectionLead ++ name.toList =
      other.collectionLead ++ binding.toList := by
    rw [← toList_collectionName, ← toList_collectionName, heq]
  rcases List.append_eq_append_iff.mp hchars with ⟨rest, hlead, _⟩ | ⟨rest, hlead, hbinding⟩
  · exact hshort ⟨rest, hlead.symm⟩
  · have hrest := hcolon ⟨rest, hlead.symm⟩
    rw [hlead, List.drop_left] at hrest
    rw [hbinding] at hplain
    exact hplain (List.mem_append_left _ hrest)

/-- A search for the purpose looks at relationships of that name. -/
def reads (purpose : Purpose) (name : String) : Bool :=
  name == purpose.directName || (purpose.bindingName? name).isSome

/-- A direct binding is read for its own purpose only. -/
theorem reads_directName_of_ne (hne : other ≠ purpose) :
    other.reads purpose.directName = false := by
  have hname : purpose.directName ≠ other.directName := fun h => hne (directName_inj.mp h).symm
  rw [reads, beq_eq_false_iff_ne.mpr hname, bindingName?_directName]
  rfl

/-- A collection binding for `full` or `preview` is read for its own purpose only, whatever its
binding name is. -/
theorem reads_collectionName_of_ne (hpurpose : purpose ≠ .allPurpose) (hne : other ≠ purpose) :
    other.reads (purpose.collectionName name) = false := by
  rw [reads, beq_eq_false_iff_ne.mpr collectionName_ne_directName,
    bindingName?_collectionName_of_ne hpurpose hne]
  rfl

end MaterialBinding.Purpose
