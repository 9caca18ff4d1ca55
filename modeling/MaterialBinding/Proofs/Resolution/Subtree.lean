import MaterialBinding.Proofs.Resolution.TieBreak

/-!
# What a prim shares with the prims above it

The walk of a pass from a prim ends in the walk from each prim above it.  If that one begins with a
strong event, nothing on the way to it counts, and both passes find the same.  So a strong direct
binding decides for the whole subtree of its prim, even if its material is missing.
-/

namespace MaterialBinding

/-- What comes before a strong event decides nothing. -/
theorem decisive_append_of_strong {event : BindingEvent} (hstrong : event.strong = true)
    (before after : List BindingEvent) :
    decisive (before ++ event :: after) = decisive (event :: after) := by
  induction before with
  | nil => rfl
  | cons first before ih =>
      have hany : (before ++ event :: after).any (·.strong) = true := by simp [hstrong]
      rw [List.cons_append, decisive, if_pos hany, ih]

namespace Stage

variable {stage : Stage} {purpose : Purpose} {wanted : String} {above path : PrimPath}

/-- The walk from below goes on as the walk from above. -/
theorem exists_walk_eq_append (habove : above ∈ path.ancestors) :
    ∃ lower, stage.walk purpose wanted path = lower ++ stage.walk purpose wanted above := by
  induction path with
  | root => exact absurd habove nofun
  | child parent name ih =>
      rcases List.mem_cons.mp habove with rfl | habove
      · exact ⟨[], rfl⟩
      · obtain ⟨lower, hlower⟩ := ih habove
        refine ⟨stage.metDirectly purpose (parent.child name) ::
          (stage.metThroughCollections purpose wanted (parent.child name) ++ lower), ?_⟩
        rw [walk, hlower, List.cons_append, List.append_assoc]

/-- A strong direct binding begins the walk from its prim with a strong event. -/
theorem exists_walk_eq_cons_strong (habove : above ∈ path.ancestors)
    (hstrong : stage.directStrength above purpose = .stronger) :
    ∃ event after, event.strong = true ∧ stage.walk purpose wanted above = event :: after := by
  cases above with
  | root =>
      have hnone : stage.directStrength (.ofPrim .root) purpose = .weaker := rfl
      rw [hnone] at hstrong
      cases hstrong
  | child parent name =>
      refine ⟨stage.metDirectly purpose (parent.child name), _, ?_, rfl⟩
      rw [← directEvent_eq_metDirectly, directEvent, hstrong]
      rfl

/-- **A strong direct binding above decides the pass**, whatever is bound on the way to it. -/
theorem pass_eq_of_strong_above (habove : above ∈ path.ancestors)
    (hstrong : stage.directStrength above purpose = .stronger) :
    stage.pass purpose wanted path = stage.pass purpose wanted above := by
  obtain ⟨lower, hlower⟩ := exists_walk_eq_append habove
  obtain ⟨event, after, hevent, hwalk⟩ := exists_walk_eq_cons_strong habove hstrong
  rw [pass_eq_findSome?_decisive, pass_eq_findSome?_decisive, hlower, hwalk,
    decisive_append_of_strong hevent]

/-- There is a prim wherever there is a relationship. -/
theorem hasPrim_of_relationship? {prim : ScenePath} {name : String} {relationship : Relationship}
    (hfound : stage.relationship? prim name = some relationship) : stage.hasPrim prim = true := by
  rw [relationship?, relationships, Stage.prim] at hfound
  rw [hasPrim]
  cases hnode : stage.node? prim with
  | none => simp [hnode] at hfound
  | some node => rfl

/-- A prim with a strong binding is there. -/
theorem hasPrim_of_strong (hstrong : stage.directStrength above purpose = .stronger) :
    stage.hasPrim above = true := by
  rw [directStrength, directRelationship?] at hstrong
  cases hfound : stage.relationship? above purpose.directName with
  | none => simp [hfound] at hstrong
  | some relationship => exact hasPrim_of_relationship? hfound

/-- Two prims have the same material if the passes from both find the same. -/
theorem resolve_eq_of_found {one other : ScenePath} {settings : Settings}
    (hone : stage.hasPrim one = true) (hother : stage.hasPrim other = true)
    (hfound : (stage.pass purpose wanted one.prim).or (stage.pass .allPurpose wanted one.prim) =
      (stage.pass purpose wanted other.prim).or (stage.pass .allPurpose wanted other.prim)) :
    stage.resolve settings one purpose wanted = stage.resolve settings other purpose wanted := by
  rw [resolve_eq_or_passes, resolve_eq_or_passes, hone, hother, hfound]
  rfl

/-- **A strong direct binding decides for its subtree.**  A pass for the purpose finds the same
from every prim below as from the prim itself.  So a search for every purpose does, and so does a
search for one purpose if its first pass finds a material. -/
theorem resolve_eq_of_strong_above (habove : above ∈ path.ancestors)
    (hstrong : stage.directStrength above purpose = .stronger)
    (hprim : stage.hasPrim path = true) :
    (∀ wanted, stage.pass purpose wanted path = stage.pass purpose wanted above) ∧
      (purpose = .allPurpose → ∀ settings wanted,
        stage.resolve settings path purpose wanted =
          stage.resolve settings above purpose wanted) ∧
      ∀ settings wanted, (stage.pass purpose wanted above).isSome = true →
        stage.resolve settings path purpose wanted =
          stage.resolve settings above purpose wanted := by
  have hpass : ∀ wanted, stage.pass purpose wanted path = stage.pass purpose wanted above :=
    fun _ => pass_eq_of_strong_above habove hstrong
  have habovePrim := hasPrim_of_strong hstrong
  refine ⟨hpass, ?_, ?_⟩
  · intro hpurpose settings wanted
    subst hpurpose
    apply resolve_eq_of_found hprim habovePrim
    change (stage.pass _ wanted path).or (stage.pass _ wanted path) = _
    rw [hpass]
    rfl
  · intro settings wanted hsome
    obtain ⟨material, hmaterial⟩ := Option.isSome_iff_exists.mp hsome
    have hbelow := (hpass wanted).trans hmaterial
    apply resolve_eq_of_found hprim habovePrim
    change (stage.pass _ wanted path).or _ = (stage.pass _ wanted above).or _
    rw [hbelow, hmaterial, Option.some_or, Option.some_or]

/-- The strong binding of the desk leads nowhere, but its collection gives red.  The cup is bound to
blue and has what the desk has: red, or nothing where the collection is filtered out. -/
theorem boundDesk_cup_as_desk :
    let desk : PrimPath := .child .root ⟨"Desk", by decide⟩
    let cup : PrimPath := desk.child ⟨"Cup", by decide⟩
    let blue : PrimPath := .child (.child .root ⟨"Looks", by decide⟩) ⟨"Blue", by decide⟩
    let red : PrimPath := .child (.child .root ⟨"Looks", by decide⟩) ⟨"Red", by decide⟩
    boundDesk.directStrength desk .allPurpose = .stronger ∧
      boundDesk.directMaterial? cup .allPurpose = some blue ∧
      boundDesk.pass .allPurpose "" cup = some red ∧
      boundDesk.pass .allPurpose "other" cup = none ∧
      boundDesk.resolve {} cup .allPurpose "" = boundDesk.resolve {} desk .allPurpose "" := by
  intro desk cup blue red
  have hstrong : boundDesk.directStrength desk .allPurpose = .stronger := by decide
  have hprim : boundDesk.hasPrim cup = true := by decide
  obtain ⟨hpass, hall, _⟩ :=
    resolve_eq_of_strong_above (show desk ∈ cup.ancestors by decide) hstrong hprim
  refine ⟨hstrong, by decide, ?_, ?_, hall rfl {} ""⟩
  · rw [hpass]
    decide
  · rw [hpass]
    decide

end Stage

end MaterialBinding
