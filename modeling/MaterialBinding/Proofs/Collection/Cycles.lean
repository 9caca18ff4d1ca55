import Mathlib.Logic.Relation
import MaterialBinding.Proofs.Collection.Recursion
import MaterialBinding.Proofs.Stage.History

/-!
# Cycles of collections

Includes make a graph of addresses: one leads to another if the collection there includes it and the
stage has a collection at it (`Stage.LeadsTo`).  At the address where flattening starts it is the
given collection that counts, whether the stage has it or another one or none.

Flattening keeps to the way that led to it, so `Underway` says that every collection it is inside of
leads to the one it has come to.  Entering one of them again is therefore a cycle
(`Underway.onCycle_of_error`), and a way that comes back to itself is never walked to its end
(`Underway.not_cycle_of_ok`).  So a collection has no membership exactly if a cycle is reached from
it (`compute_fails_iff_cycle`): sharing collections or including missing ones does no harm.
-/

namespace MaterialBinding

open Relation

namespace Stage

variable {stage : Stage} {start address item : ScenePath} {given : Collection}

/-- What the collection at an address includes, where `given` stands at the start and the
collections of the stage stand everywhere else. -/
def includesAt (stage : Stage) (start : ScenePath) (given : Collection) (address : ScenePath) :
    List ScenePath :=
  if address = start then given.includes
  else
    match stage.collectionAt? address with
    | some collection => collection.includes
    | none => []

/-- The collection at one address includes the other address, and the stage has a collection
there. -/
def LeadsTo (stage : Stage) (start : ScenePath) (given : Collection) (address item : ScenePath) :
    Prop :=
  item ∈ stage.includesAt start given address ∧ (stage.collectionAt? item).isSome = true

/-- The address is reached from the start, and from it a way leads back to it. -/
def OnCycle (stage : Stage) (start : ScenePath) (given : Collection) (address : ScenePath) :
    Prop :=
  ReflTransGen (stage.LeadsTo start given) start address ∧
    TransGen (stage.LeadsTo start given) address address

/-- The collection that is asked about is the given one, whatever the stage has under its address.
-/
theorem includesAt_start : stage.includesAt start given start = given.includes := by
  rw [includesAt, if_pos rfl]

/-- At every other address stands the collection that the stage has there. -/
theorem includesAt_of_collectionAt? {collection : Collection} (hne : address ≠ start)
    (hat : stage.collectionAt? address = some collection) :
    stage.includesAt start given address = collection.includes := by
  rw [includesAt, if_neg hne, hat]

end Stage

namespace MemberRules

open Stage

variable {stage : Stage} {start address item reached owner : ScenePath}
  {given collection nested : Collection} {inside : List ScenePath}
  {entries : List (ScenePath × Rule)} {error : Error}

/-- Flattening the collection that is given at `start` has come to the collection at an address. -/
structure Underway (stage : Stage) (start : ScenePath) (given : Collection)
    (inside : List ScenePath) (address : ScenePath) (collection : Collection) : Prop where
  /-- It came there from the start. -/
  reached : ReflTransGen (stage.LeadsTo start given) start address
  /-- It came there through all that it is inside of. -/
  through : ∀ above ∈ inside, TransGen (stage.LeadsTo start given) above address
  /-- The start is among them, unless it is the address itself. -/
  start_mem : start ∈ address :: inside
  /-- Unless the address is entered again, the collection is the one that counts there. -/
  includes_eq : address ∉ inside → collection.includes = stage.includesAt start given address

/-- This is so at the beginning. -/
theorem Underway.at_start (stage : Stage) (start : ScenePath) (given : Collection) :
    Underway stage start given [] start given where
  reached := .refl
  through := nofun
  start_mem := List.mem_cons_self ..
  includes_eq := fun _ => includesAt_start.symm

/-- A flattening that is underway leads from the collection it is in to those that this one
includes. -/
theorem Underway.leadsTo (h : Underway stage start given inside address collection)
    (hnew : address ∉ inside) (hmem : item ∈ collection.includes)
    (hat : stage.collectionAt? item = some nested) : stage.LeadsTo start given address item :=
  ⟨h.includes_eq hnew ▸ hmem, by rw [hat]; rfl⟩

/-- And it stays so from a collection to those that it calls for. -/
theorem Underway.onward (h : Underway stage start given inside address collection)
    (hnew : address ∉ inside) (hmem : item ∈ collection.includes)
    (hat : stage.collectionAt? item = some nested) :
    Underway stage start given (address :: inside) item nested where
  reached := h.reached.tail (h.leadsTo hnew hmem hat)
  through above habove := by
    have hstep := h.leadsTo hnew hmem hat
    rcases List.mem_cons.mp habove with rfl | habove
    · exact .single hstep
    · exact (h.through above habove).tail hstep
  start_mem := List.mem_cons_of_mem _ h.start_mem
  includes_eq hitem := by
    have hne : item ≠ start := fun heq => hitem (heq ▸ h.start_mem)
    exact (includesAt_of_collectionAt? hne hat).symm

/-- **A failure is a cycle.**  Flattening fails only at an address that it is inside of. -/
theorem Underway.onCycle_of_error (h : Underway stage start given inside address collection)
    (hfails : entriesOf stage stage.nestingLimit inside address collection = .error error) :
    ∃ again, error = .collectionCycle again ∧ stage.OnCycle start given again := by
  induction hturn : Turn.mk inside address collection
    using (Turn.wellFounded_calls stage).induction generalizing inside address collection with
  | h turn ih =>
      subst hturn
      by_cases hinside : address ∈ inside
      · rw [entriesOf_nestingLimit, if_pos hinside] at hfails
        obtain rfl := Except.error.inj hfails
        exact ⟨address, rfl, h.reached, h.through address hinside⟩
      · obtain ⟨item, hmem, nested, hat, hnested⟩ := exists_nested_of_error hinside hfails
        exact ih _ (.intro hinside hmem hat) (h.onward hinside hmem hat) hnested rfl

/-- After a way that begins at a collection which is flattened, the next one is flattened too. -/
theorem Underway.exists_nested (h : Underway stage start given inside address collection)
    (hsucceeds : entriesOf stage stage.nestingLimit inside address collection = .ok entries)
    (hstep : stage.LeadsTo start given address item) :
    ∃ nested part, item ∈ collection.includes ∧ stage.collectionAt? item = some nested ∧
      entriesOf stage stage.nestingLimit (address :: inside) item nested = .ok part := by
  obtain ⟨hnew, hall⟩ := exists_entries_of_ok hsucceeds
  obtain ⟨hmem, hsome⟩ := hstep
  obtain ⟨nested, hat⟩ := Option.isSome_iff_exists.mp hsome
  rw [← h.includes_eq hnew] at hmem
  obtain ⟨part, hpart⟩ := hall item hmem nested hat
  exact ⟨nested, part, hmem, hat, hpart⟩

/-- No way from a collection that is flattened leads back to one that it is flattened inside of. -/
theorem Underway.not_mem_of_ok (h : Underway stage start given inside address collection)
    (hsucceeds : entriesOf stage stage.nestingLimit inside address collection = .ok entries)
    (hway : ReflTransGen (stage.LeadsTo start given) address reached) : reached ∉ inside := by
  induction hturn : Turn.mk inside address collection
    using (Turn.wellFounded_calls stage).induction
    generalizing inside address collection entries with
  | h turn ih =>
      subst hturn
      have hnew := (exists_entries_of_ok hsucceeds).1
      rcases hway.cases_head with rfl | ⟨item, hstep, hrest⟩
      · exact hnew
      · obtain ⟨nested, part, hmem, hat, hpart⟩ := h.exists_nested hsucceeds hstep
        have hapart := ih _ (.intro hnew hmem hat) (h.onward hnew hmem hat) hpart hrest rfl
        exact fun hinside => hapart (List.mem_cons_of_mem _ hinside)

/-- **A success is no cycle.**  No way from a collection that is flattened comes to a cycle. -/
theorem Underway.not_cycle_of_ok (h : Underway stage start given inside address collection)
    (hsucceeds : entriesOf stage stage.nestingLimit inside address collection = .ok entries)
    (hway : ReflTransGen (stage.LeadsTo start given) address reached) :
    ¬ TransGen (stage.LeadsTo start given) reached reached := by
  induction hturn : Turn.mk inside address collection
    using (Turn.wellFounded_calls stage).induction
    generalizing inside address collection entries with
  | h turn ih =>
      subst hturn
      have hnew := (exists_entries_of_ok hsucceeds).1
      rcases hway.cases_head with rfl | ⟨item, hstep, hrest⟩
      · intro hcycle
        -- The cycle would lead from a collection that is flattened inside of this one back to it.
        obtain ⟨item, hstep, hback⟩ := TransGen.head'_iff.mp hcycle
        obtain ⟨nested, part, hmem, hat, hpart⟩ := h.exists_nested hsucceeds hstep
        exact (h.onward hnew hmem hat).not_mem_of_ok hpart hback (List.mem_cons_self ..)
      · obtain ⟨nested, part, hmem, hat, hpart⟩ := h.exists_nested hsucceeds hstep
        exact ih _ (.intro hnew hmem hat) (h.onward hnew hmem hat) hpart hrest rfl

/-- **Membership fails exactly at cycles**, and its computation always ends.  Let a collection be
given at the address that its owner and its name make, whether the stage has it or not.

* No chain of calls for collections goes on forever, and a limit on the depth beyond that of the
  stage changes nothing.
* There is no membership exactly if a cycle is reached from the address through includes that are
  on the stage.
* The failure then names an address on such a cycle. -/
theorem compute_fails_iff_cycle (hstart : owner.collection given.name = .ok start) :
    WellFounded (Turn.Calls stage) ∧
      (∀ depth, stage.nestingLimit ≤ depth →
        entriesOf stage depth [] start given = entriesOf stage stage.nestingLimit [] start given) ∧
      ((∃ error, compute stage owner given = .error error) ↔
        ∃ address, stage.OnCycle start given address) ∧
      ∀ error, compute stage owner given = .error error →
        ∃ address, error = .collectionCycle address ∧ stage.OnCycle start given address := by
  have hcompute : compute stage owner given =
      (entriesOf stage stage.nestingLimit [] start given).map MemberRules.mk := by
    simp only [compute, hstart]
    cases entriesOf stage stage.nestingLimit [] start given <;> rfl
  have hcycle : ∀ error, compute stage owner given = .error error →
      ∃ address, error = .collectionCycle address ∧ stage.OnCycle start given address := by
    intro error hfails
    rw [hcompute] at hfails
    cases hentries : entriesOf stage stage.nestingLimit [] start given with
    | ok entries =>
        rw [hentries] at hfails
        cases hfails
    | error cause =>
        rw [hentries] at hfails
        obtain rfl := Except.error.inj hfails
        exact (Underway.at_start stage start given).onCycle_of_error hentries
  refine ⟨Turn.wellFounded_calls stage, fun depth => entriesOf_eq_of_nestingLimit_le, ?_, hcycle⟩
  constructor
  · rintro ⟨error, hfails⟩
    obtain ⟨address, _, honCycle⟩ := hcycle error hfails
    exact ⟨address, honCycle⟩
  · rintro ⟨address, hway, hback⟩
    rw [hcompute]
    cases hentries : entriesOf stage stage.nestingLimit [] start given with
    | ok entries =>
        exact absurd hback ((Underway.at_start stage start given).not_cycle_of_ok hentries hway)
    | error cause => exact ⟨cause, rfl⟩

end MemberRules

namespace Stage

/-- A workshop with a box in which two collections include each other. -/
def hingeHistory : List Edit :=
  let box : PrimPath := .child .root ⟨"Box", by decide⟩
  let lid : ScenePath := .ofProperty .root ⟨"Box", by decide⟩ ⟨"collection:lid", by decide⟩
  let hinge : ScenePath := .ofProperty .root ⟨"Box", by decide⟩ ⟨"collection:hinge", by decide⟩
  [.definePrim box, .defineCollection box { name := "lid", includes := [hinge] },
    .defineCollection box { name := "hinge", includes := [box, lid] }]

/-- A collection that is not on the stage and includes one of the two has no membership: it reaches
their cycle, and is not on it. -/
theorem hinge_cycle :
    let stage := hingeHistory.foldl Edit.run {}
    let box : ScenePath := PrimPath.root.child ⟨"Box", by decide⟩
    let lid : ScenePath := .ofProperty .root ⟨"Box", by decide⟩ ⟨"collection:lid", by decide⟩
    let tools : Collection := { name := "tools", includes := [lid] }
    let start : ScenePath := .ofProperty .root ⟨"Box", by decide⟩ ⟨"collection:tools", by decide⟩
    box.collection tools.name = .ok start ∧ stage.OnCycle start tools lid := by
  intro stage box lid tools start
  have hstart : box.collection tools.name = .ok start := by decide
  have hfails : MemberRules.compute stage box tools = .error (.collectionCycle lid) := by decide
  obtain ⟨address, herror, honCycle⟩ :=
    (MemberRules.compute_fails_iff_cycle hstart).2.2.2 _ hfails
  obtain rfl : lid = address := Error.collectionCycle.inj herror
  exact ⟨hstart, honCycle⟩

end Stage

end MaterialBinding
