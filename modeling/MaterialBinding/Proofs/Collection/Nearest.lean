import MaterialBinding.Proofs.Collection.Precedence
import MaterialBinding.Proofs.Path.Prefix

/-!
# The nearest rule decides

Membership is looked up on the way from a path to the root, and the first path with a rule decides.
Said of texts, this is the longest of the paths with a rule that begin the given one (`Decides`);
`contains_iff_decides` proves it by following the way up, for rules of any origin.

A collection is flat if it includes no other.  The paths with a rule are then those that it lists,
and `contains_iff_longest_listed` gives its members in terms of these lists, whose order and
repetitions do not matter.

Excluding a path writes one more rule, which comes after all others.  It takes the path out and
touches nothing but what the path begins (`exclude_removes_below`).
-/

namespace MaterialBinding

/-- The rule of one path puts the other path in, which is the same or below. -/
def Rule.admits (rule : Rule) (lead path : ScenePath) : Bool :=
  if lead = path then rule.takesIn else rule.takesInBelow path

/-- At its own path a rule takes in what it says of this path. -/
theorem Rule.admits_self (rule : Rule) (path : ScenePath) :
    rule.admits path path = rule.takesIn := if_pos rfl

/-- Below its path a rule takes in what it says of the paths below. -/
theorem Rule.admits_of_ne {lead path : ScenePath} (hne : lead ≠ path) (rule : Rule) :
    rule.admits lead path = rule.takesInBelow path := if_neg hne

/-- An exclude takes in nothing. -/
theorem Rule.admits_excluded (lead path : ScenePath) : Rule.excluded.admits lead path = false := by
  rw [admits]
  split <;> rfl

/-- An include admits its own path, and below it what the expansion rule says. -/
theorem Rule.admits_included {expansion : ExpansionRule} {lead path : ScenePath} :
    (Rule.included expansion).admits lead path = true ↔
      lead = path ∨ (expansion = .expandPrims ∧ path.isProperty = false) ∨
        expansion = .expandPrimsAndProperties := by
  by_cases hsame : lead = path
  · simp [hsame, admits, takesIn]
  · rw [admits_of_ne hsame]
    cases expansion <;> simp [hsame, takesInBelow]

namespace MemberRules

open ScenePath

/-! ## The path that decides -/

/-- Of the paths with a rule that begin a path, `lead` is the longest. -/
structure Decides (rules : MemberRules) (path lead : ScenePath) (rule : Rule) : Prop where
  begins : path.hasPrefix lead = true
  rule_eq : rules.rule? lead = some rule
  longest : ∀ other, path.hasPrefix other = true → (rules.rule? other).isSome = true →
    other.chars.length ≤ lead.chars.length

variable {rules : MemberRules} {path lead above : ScenePath} {rule own : Rule}

/-- A path with a rule of its own decides about itself. -/
theorem decides_iff_of_rule? (hown : rules.rule? path = some own) :
    rules.Decides path lead rule ↔ lead = path ∧ rule = own := by
  have hself : path.hasPrefix path = true := hasPrefix_iff_eq_or_parent.mpr (Or.inl rfl)
  constructor
  · intro h
    rcases eq_or_length_lt_of_hasPrefix h.begins with rfl | hshorter
    · exact ⟨rfl, Option.some.inj (h.rule_eq.symm.trans hown)⟩
    · have hlonger := h.longest path hself (by rw [hown]; rfl)
      omega
  · rintro ⟨rfl, rfl⟩
    refine ⟨hself, hown, fun other hother _ => ?_⟩
    rcases eq_or_length_lt_of_hasPrefix hother with rfl | hshorter
    · exact Nat.le_refl _
    · exact Nat.le_of_lt hshorter

/-- **One step up.**  About a path without a rule it is decided as about its parent. -/
theorem decides_iff_of_parent (hnone : rules.rule? path = none)
    (hparent : path.parent = some above) :
    rules.Decides path lead rule ↔ rules.Decides above lead rule := by
  have hstep : ∀ other, (rules.rule? other).isSome = true →
      (path.hasPrefix other = true ↔ above.hasPrefix other = true) := by
    intro other hsome
    refine hasPrefix_iff_of_parent hparent ?_
    rintro rfl
    rw [hnone] at hsome
    cases hsome
  constructor
  · intro h
    have hsome : (rules.rule? lead).isSome = true := Option.isSome_of_mem h.rule_eq
    exact ⟨(hstep lead hsome).mp h.begins, h.rule_eq,
      fun other hother hrule => h.longest other ((hstep other hrule).mpr hother) hrule⟩
  · intro h
    have hsome : (rules.rule? lead).isSome = true := Option.isSome_of_mem h.rule_eq
    exact ⟨(hstep lead hsome).mpr h.begins, h.rule_eq,
      fun other hother hrule => h.longest other ((hstep other hrule).mp hother) hrule⟩

/-- The way up ends at the root. -/
theorem not_decides_of_root (hnone : rules.rule? path = none) (hparent : path.parent = none) :
    ¬ rules.Decides path lead rule := by
  intro h
  rcases hasPrefix_iff_eq_or_parent.mp h.begins with rfl | ⟨above, habove, _⟩
  · rw [h.rule_eq] at hnone
    cases hnone
  · rw [hparent] at habove
    cases habove

/-- The search for a rule finds the one that decides. -/
theorem nearestRule?_eq_some_iff {prim : PrimPath} :
    rules.nearestRule? prim = some rule ↔ ∃ lead, rules.Decides (.ofPrim prim) lead rule := by
  have hfound : ∀ {path own}, rules.rule? path = some own →
      (some own = some rule ↔ ∃ lead, rules.Decides path lead rule) := by
    intro path own hown
    simp [decides_iff_of_rule? hown, eq_comm]
  induction prim with
  | root =>
      rw [nearestRule?]
      cases hrule : rules.rule? .root with
      | some own => exact hfound hrule
      | none =>
          constructor
          · nofun
          · rintro ⟨lead, h⟩
            exact absurd h (not_decides_of_root hrule rfl)
  | child parent name ih =>
      rw [nearestRule?]
      cases hrule : rules.rule? (.ofPrim (parent.child name)) with
      | some own => exact hfound hrule
      | none => simp only [ih, decides_iff_of_parent hrule rfl]

/-- A path without a rule is in if the rule that decides reaches down to it. -/
theorem Decides.admits_eq (h : rules.Decides path lead rule) (hnone : rules.rule? path = none) :
    rule.admits lead path = rule.takesInBelow path := by
  refine Rule.admits_of_ne ?_ rule
  rintro rfl
  rw [h.rule_eq] at hnone
  cases hnone

/-- **The nearest rule decides**, whether it is that of the path or of one above. -/
theorem contains_iff_decides :
    rules.contains path = true ↔
      ∃ lead rule, rules.Decides path lead rule ∧ rule.admits lead path = true := by
  rw [contains]
  cases hrule : rules.rule? path with
  | some own => simp [decides_iff_of_rule? hrule, Rule.admits_self]
  | none =>
      cases hparent : path.parent with
      | none =>
          constructor
          · intro htakes
            cases htakes
          · rintro ⟨lead, rule, h, _⟩
            exact absurd h (not_decides_of_root hrule hparent)
      | some above =>
          -- What decides about the parent decides here too, but from further away: it has to reach.
          have hnearest : ∀ rule, rules.nearestRule? above.prim = some rule ↔
              ∃ lead, rules.Decides path lead rule := by
            intro rule
            rw [nearestRule?_eq_some_iff, ← parent_eq_ofPrim hparent]
            simp only [decides_iff_of_parent hrule hparent]
          rw [Option.bind_some]
          constructor
          · intro htakes
            cases hfound : rules.nearestRule? above.prim with
            | none => simp [hfound] at htakes
            | some rule =>
                obtain ⟨lead, h⟩ := (hnearest rule).mp hfound
                refine ⟨lead, rule, h, ?_⟩
                rw [h.admits_eq hrule]
                simpa only [hfound] using htakes
          · rintro ⟨lead, rule, h, hadmits⟩
            rw [(hnearest rule).mpr ⟨lead, h⟩]
            exact (h.admits_eq hrule).symm.trans hadmits

/-- Who decides about a path depends on the rules at the prefixes of this path only. -/
theorem Decides.of_agree {others : MemberRules} (h : rules.Decides path lead rule)
    (hsame : ∀ lead, path.hasPrefix lead = true → others.rule? lead = rules.rule? lead) :
    others.Decides path lead rule where
  begins := h.begins
  rule_eq := (hsame lead h.begins).trans h.rule_eq
  longest := fun other hother hrule => h.longest other hother (hsame other hother ▸ hrule)

/-- Membership of a path depends on the rules of what begins it. -/
theorem contains_congr {others : MemberRules}
    (hsame : ∀ lead, path.hasPrefix lead = true → others.rule? lead = rules.rule? lead) :
    others.contains path = rules.contains path := by
  have hdecides : ∀ lead rule, others.Decides path lead rule ↔ rules.Decides path lead rule :=
    fun lead rule => ⟨fun h => h.of_agree fun other hother => (hsame other hother).symm,
      fun h => h.of_agree hsame⟩
  rw [Bool.eq_iff_iff, contains_iff_decides, contains_iff_decides]
  simp only [hdecides]

end MemberRules

/-! ## Flat collections -/

namespace Collection

/-- The collection includes no other. -/
def Flat (collection : Collection) : Prop :=
  ∀ item ∈ collection.includes, item.asCollection? = none

/-- The paths that the collection includes, with the root. -/
def included (collection : Collection) : List ScenePath :=
  (if collection.includeRoot then [.root] else []) ++ collection.includes

/-- All paths that the collection lists. -/
def listed (collection : Collection) : List ScenePath :=
  collection.included ++ collection.excludes

/-- Of the listed paths that begin a path, `lead` is the longest. -/
structure LongestListed (collection : Collection) (path lead : ScenePath) : Prop where
  mem : lead ∈ collection.listed
  begins : path.hasPrefix lead = true
  longest : ∀ other ∈ collection.listed, path.hasPrefix other = true →
    other.chars.length ≤ lead.chars.length

/-- The collections list the same paths, in any order and any number of times. -/
structure SameLists (collection other : Collection) : Prop where
  name_eq : other.name = collection.name
  rule_eq : other.expansionRule = collection.expansionRule
  root_eq : other.includeRoot = collection.includeRoot
  includes_iff : ∀ path, path ∈ other.includes ↔ path ∈ collection.includes
  excludes_iff : ∀ path, path ∈ other.excludes ↔ path ∈ collection.excludes

variable {collection other : Collection} {path lead lead' : ScenePath}

/-- No two paths are the longest. -/
theorem LongestListed.unique (h : collection.LongestListed path lead)
    (h' : collection.LongestListed path lead') : lead = lead' :=
  ScenePath.eq_of_hasPrefix_of_length_eq h.begins h'.begins
    (Nat.le_antisymm (h'.longest lead h.mem h.begins) (h.longest lead' h'.mem h'.begins))

/-- Collections with the same lists are both flat or both not. -/
theorem SameLists.flat (h : collection.SameLists other) (hflat : collection.Flat) : other.Flat :=
  fun item hmem => hflat item ((h.includes_iff item).mp hmem)

/-- Collections with the same lists list the same paths. -/
theorem SameLists.mem_listed_iff (h : collection.SameLists other) :
    path ∈ other.listed ↔ path ∈ collection.listed := by
  simp only [listed, included, List.mem_append, h.root_eq, h.includes_iff, h.excludes_iff]

/-- Collections with the same lists have the same longest listed prefixes. -/
theorem SameLists.longestListed_iff (h : collection.SameLists other) :
    other.LongestListed path lead ↔ collection.LongestListed path lead := by
  constructor
  · intro hlongest
    exact ⟨h.mem_listed_iff.mp hlongest.mem, hlongest.begins,
      fun item hmem => hlongest.longest item (h.mem_listed_iff.mpr hmem)⟩
  · intro hlongest
    exact ⟨h.mem_listed_iff.mpr hlongest.mem, hlongest.begins,
      fun item hmem => hlongest.longest item (h.mem_listed_iff.mp hmem)⟩

end Collection

namespace MemberRules

open ScenePath

variable {stage : Stage} {owner address path lead : ScenePath} {collection : Collection}
  {rules : MemberRules} {rule : Rule}

/-- The entries of a flat collection. -/
def flatEntries (collection : Collection) : List (ScenePath × Rule) :=
  (collection.included.map fun path => (path, .included collection.expansionRule)) ++
    excludedEntries collection

/-- A flat collection is flattened as it stands. -/
theorem entriesOf_of_flat (hflat : collection.Flat) (depth : Nat) (address : ScenePath) :
    entriesOf stage (depth + 1) [] address collection = .ok (flatEntries collection) := by
  refine entriesOf_eq_ok_iff.mpr ⟨List.not_mem_nil, ?_⟩
  refine ⟨collection.includes.map fun path => [(path, .included collection.expansionRule)], ?_, ?_⟩
  · rw [List.forall₂_map_right_iff, List.forall₂_same]
    intro item hmem
    rw [includedEntries, hflat item hmem]
    rfl
  · rw [flatEntries, Collection.included, List.map_append, rootEntries, ← List.flatMap_def,
      ← List.map_eq_flatMap]
    cases collection.includeRoot <;> rfl

/-- So it has a membership wherever it has an address. -/
theorem compute_eq_ok_iff_of_flat (hflat : collection.Flat) :
    compute stage owner collection = .ok rules ↔
      (∃ address, owner.collection collection.name = .ok address) ∧
        rules.entries = flatEntries collection := by
  have hentries : ∀ address, entriesOf stage stage.nestingLimit [] address collection =
      .ok (flatEntries collection) := entriesOf_of_flat hflat _
  rw [compute_eq_ok_iff]
  simp only [hentries, Except.ok.injEq, exists_and_right, eq_comm]

/-- What a flat collection says of a path that it lists: excludes come before includes. -/
def flatRule (collection : Collection) (path : ScenePath) : Rule :=
  if path ∈ collection.excludes then .excluded else .included collection.expansionRule

/-- A flat collection has a rule for the paths that it lists, and for no others. -/
theorem rule?_flatEntries (collection : Collection) (path : ScenePath) :
    rule? ⟨flatEntries collection⟩ path =
      if path ∈ collection.listed then some (flatRule collection path) else none := by
  have hlisted : path ∈ collection.listed ↔
      path ∈ collection.included ∨ path ∈ collection.excludes := List.mem_append
  rw [flatEntries, excludedEntries, rule?_append, rule?_map, rule?_map, flatRule]
  by_cases hexcluded : path ∈ collection.excludes
  · simp [hlisted, hexcluded]
  · simp [hlisted, hexcluded]

/-- The rules of a flat collection decide as its lists do. -/
theorem decides_flatEntries_iff :
    Decides ⟨flatEntries collection⟩ path lead rule ↔
      collection.LongestListed path lead ∧ rule = flatRule collection lead := by
  have hsome : ∀ other, (rule? ⟨flatEntries collection⟩ other).isSome = true ↔
      other ∈ collection.listed := by
    intro other
    rw [rule?_flatEntries]
    split <;> simp [*]
  constructor
  · intro h
    have hmem : lead ∈ collection.listed := (hsome lead).mp (by rw [h.rule_eq]; rfl)
    have hrule := h.rule_eq
    rw [rule?_flatEntries, if_pos hmem] at hrule
    exact ⟨⟨hmem, h.begins, fun other hother hbegins => h.longest other hbegins
      ((hsome other).mpr hother)⟩, (Option.some.inj hrule).symm⟩
  · rintro ⟨h, rfl⟩
    refine ⟨h.begins, ?_, fun other hbegins hother => h.longest other ((hsome other).mp hother)
      hbegins⟩
    rw [rule?_flatEntries, if_pos h.mem]

/-- What the longest listed path says. -/
theorem admits_flatRule_iff :
    (flatRule collection lead).admits lead path = true ↔
      lead ∉ collection.excludes ∧
        (lead = path ∨ (collection.expansionRule = .expandPrims ∧ path.isProperty = false) ∨
          collection.expansionRule = .expandPrimsAndProperties) := by
  rw [flatRule]
  by_cases hexcluded : lead ∈ collection.excludes
  · simp [hexcluded, Rule.admits_excluded]
  · rw [if_neg hexcluded, Rule.admits_included, and_iff_right hexcluded]

/-- **The longest listed prefix decides**: a path is in a flat collection if this prefix is not
excluded and is the path itself or one whose expansion reaches the path. -/
theorem contains_flatEntries_iff :
    contains ⟨flatEntries collection⟩ path = true ↔
      ∃ lead, collection.LongestListed path lead ∧ lead ∉ collection.excludes ∧
        (lead = path ∨ (collection.expansionRule = .expandPrims ∧ path.isProperty = false) ∨
          collection.expansionRule = .expandPrimsAndProperties) := by
  simp only [contains_iff_decides, decides_flatEntries_iff, and_assoc, exists_and_left,
    exists_eq_left, admits_flatRule_iff]

/-- **Membership of a flat collection.**  The longest of its includes and excludes that begins a
path decides: the path is a member if it is the listed path itself, or if the expansion rule reaches
down to it, and if no exclude says otherwise.

So it does not matter in which order the paths are listed, and how often. -/
theorem contains_iff_longest_listed (hflat : collection.Flat)
    (hcompute : compute stage owner collection = .ok rules) :
    (∀ path, rules.contains path = true ↔
      ∃ lead, collection.LongestListed path lead ∧ lead ∉ collection.excludes ∧
        (lead = path ∨ (collection.expansionRule = .expandPrims ∧ path.isProperty = false) ∨
          collection.expansionRule = .expandPrimsAndProperties)) ∧
    ∀ other, collection.SameLists other →
      ∃ others, compute stage owner other = .ok others ∧
        ∀ path, others.contains path = rules.contains path := by
  obtain ⟨haddress, hentries⟩ := (compute_eq_ok_iff_of_flat hflat).mp hcompute
  obtain rfl : rules = ⟨flatEntries collection⟩ := congrArg MemberRules.mk hentries
  refine ⟨fun path => contains_flatEntries_iff, fun other hsame => ?_⟩
  refine ⟨⟨flatEntries other⟩, ?_, fun path => ?_⟩
  · rw [compute_eq_ok_iff_of_flat (hsame.flat hflat), hsame.name_eq]
    exact ⟨haddress, rfl⟩
  · rw [Bool.eq_iff_iff, contains_flatEntries_iff, contains_flatEntries_iff]
    simp only [hsame.longestListed_iff, hsame.excludes_iff, hsame.rule_eq]

/-- A pencil in a drawer that is excluded from a desk is listed itself, so it is a member. -/
theorem contains_listed_pencil :
    let desk : PrimPath := .child .root ⟨"Desk", by decide⟩
    let drawer : PrimPath := desk.child ⟨"Drawer", by decide⟩
    let pencil : PrimPath := drawer.child ⟨"Pencil", by decide⟩
    ∃ rules others,
      compute {} desk { name := "tools", includes := [desk, pencil], excludes := [drawer] } =
        .ok rules ∧
      rules.contains pencil = true ∧
      compute {} desk
        { name := "tools", includes := [pencil, desk, pencil], excludes := [drawer, drawer] } =
          .ok others ∧
      ∀ path, others.contains path = rules.contains path := by
  intro desk drawer pencil
  have hcompute : compute {} desk
      { name := "tools", includes := [desk, pencil], excludes := [drawer] } =
        .ok ⟨[(desk, .included .expandPrims), (pencil, .included .expandPrims),
          (drawer, .excluded)]⟩ := by decide
  have hflat : Collection.Flat
      { name := "tools", includes := [desk, pencil], excludes := [drawer] } := by
    simp only [Collection.Flat]
    decide
  obtain ⟨hmember, hrelisted⟩ := contains_iff_longest_listed hflat hcompute
  have hsame : Collection.SameLists
      { name := "tools", includes := [desk, pencil], excludes := [drawer] }
      { name := "tools", includes := [pencil, desk, pencil], excludes := [drawer, drawer] } :=
    ⟨rfl, rfl, rfl, by simp [or_comm], by simp⟩
  obtain ⟨others, hothers, hcontains⟩ := hrelisted _ hsame
  refine ⟨_, others, hcompute, (hmember pencil).mpr ⟨pencil, ?_, by decide, Or.inl rfl⟩, hothers,
    hcontains⟩
  exact ⟨by decide, by decide, by decide⟩

/-! ## One more exclude -/

/-- One more path is excluded, after everything else. -/
def exclude (rules : MemberRules) (path : ScenePath) : MemberRules :=
  ⟨rules.entries ++ [(path, .excluded)]⟩

variable {item : ScenePath}

/-- An exclude writes the rule of one path and leaves those of all others. -/
theorem rule?_exclude :
    (rules.exclude item).rule? path = if path = item then some .excluded else rules.rule? path := by
  rw [exclude, rule?_append, rule?_singleton]
  by_cases hpath : path = item
  · simp [hpath]
  · simp [hpath]

/-- A collection with one more exclude is flattened into the same rules with that exclude. -/
theorem compute_exclude (hcompute : compute stage owner collection = .ok rules)
    (item : ScenePath) : compute stage owner (collection.exclude item) =
      .ok (rules.exclude item) := by
  have hlimit : stage.nestingLimit = stage.tree.collectionCount + 1 + 1 := rfl
  obtain ⟨address, haddress, hentries⟩ := compute_eq_ok_iff.mp hcompute
  rw [hlimit] at hentries
  obtain ⟨hinside, parts, hparts, hwhole⟩ := entriesOf_eq_ok_iff.mp hentries
  refine compute_eq_ok_iff.mpr ⟨address, haddress, ?_⟩
  rw [hlimit]
  refine entriesOf_eq_ok_iff.mpr ⟨hinside, parts, hparts, ?_⟩
  have hexcluded : excludedEntries (collection.exclude item) =
      excludedEntries collection ++ [(item, .excluded)] := List.map_append
  rw [hexcluded, ← List.append_assoc, exclude, ← hwhole]
  rfl

/-- What decides after an exclude, and is not the excluded path, has decided before. -/
theorem Decides.of_exclude (h : (rules.exclude item).Decides path lead rule) (hne : lead ≠ item) :
    rules.Decides path lead rule where
  begins := h.begins
  rule_eq := by
    have hrule := h.rule_eq
    rwa [rule?_exclude, if_neg hne] at hrule
  longest := by
    intro other hother hrule
    refine h.longest other hother ?_
    rw [rule?_exclude]
    split
    · rfl
    · exact hrule

/-- What was excluded is not a member. -/
theorem contains_exclude_self (rules : MemberRules) (item : ScenePath) :
    (rules.exclude item).contains item = false := by
  have hrule : (rules.exclude item).rule? item = some .excluded := by
    rw [rule?_exclude, if_pos rfl]
  exact contains_of_rule? hrule

/-- Excluding takes nothing in. -/
theorem contains_of_exclude (hcontains : (rules.exclude item).contains path = true) :
    rules.contains path = true := by
  obtain ⟨lead, rule, hdecides, hadmits⟩ := contains_iff_decides.mp hcontains
  have hne : lead ≠ item := by
    rintro rfl
    have hrule := hdecides.rule_eq
    rw [rule?_exclude, if_pos rfl] at hrule
    obtain rfl := Option.some.inj hrule
    rw [Rule.admits_excluded] at hadmits
    cases hadmits
  exact contains_iff_decides.mpr ⟨lead, rule, hdecides.of_exclude hne, hadmits⟩

/-- Excluding a path leaves what is not at or below it as it was. -/
theorem contains_exclude_of_not_hasPrefix (houtside : path.hasPrefix item = false) :
    (rules.exclude item).contains path = rules.contains path := by
  refine contains_congr fun lead hlead => ?_
  have hne : lead ≠ item := by
    rintro rfl
    rw [hlead] at houtside
    cases houtside
  rw [rule?_exclude, if_neg hne]

/-- **An exclude only removes members, and only below it.**  A collection that is nested in any way
can still be flattened when one more path is excluded.  That path is no member then, no other path
has become one, and whatever the path does not begin is a member or not as before. -/
theorem exclude_removes_below (hcompute : compute stage owner collection = .ok rules)
    (item : ScenePath) :
    ∃ fewer, compute stage owner (collection.exclude item) = .ok fewer ∧
      fewer.contains item = false ∧
      (∀ path, fewer.contains path = true → rules.contains path = true) ∧
      ∀ path, path.hasPrefix item = false → fewer.contains path = rules.contains path :=
  ⟨rules.exclude item, compute_exclude hcompute item, contains_exclude_self rules item,
    fun _ => contains_of_exclude, fun _ => contains_exclude_of_not_hasPrefix⟩

end MemberRules

namespace Stage

/-- A pantry with a jar; its collection `glass` includes the jar. -/
def pantryHistory : List Edit :=
  let pantry : PrimPath := .child .root ⟨"Pantry", by decide⟩
  [.definePrim (pantry.child ⟨"Jar", by decide⟩),
    .defineCollection pantry { name := "glass", includes := [pantry.child ⟨"Jar", by decide⟩] }]

/-- A collection that includes the pantry and takes in `glass` loses the jar to an exclude, and
keeps the pantry. -/
theorem pantry_without_jar :
    let pantry : PrimPath := .child .root ⟨"Pantry", by decide⟩
    let jar : PrimPath := pantry.child ⟨"Jar", by decide⟩
    let glass : ScenePath :=
      .ofProperty .root ⟨"Pantry", by decide⟩ ⟨"collection:glass", by decide⟩
    ∃ rules fewer,
      MemberRules.compute (pantryHistory.foldl Edit.run {}) pantry
        { name := "stock", includes := [pantry, glass] } = .ok rules ∧
      rules.contains jar = true ∧
      MemberRules.compute (pantryHistory.foldl Edit.run {}) pantry
        { name := "stock", includes := [pantry, glass], excludes := [jar] } = .ok fewer ∧
      fewer.contains jar = false ∧ fewer.contains pantry = rules.contains pantry := by
  intro pantry jar glass
  have hcompute : MemberRules.compute (pantryHistory.foldl Edit.run {}) pantry
      { name := "stock", includes := [pantry, glass] } =
        .ok ⟨[(pantry, .included .expandPrims), (jar, .included .expandPrims)]⟩ := by decide
  obtain ⟨fewer, hfewer, hjar, _, houtside⟩ := MemberRules.exclude_removes_below hcompute jar
  exact ⟨_, fewer, hcompute, by decide, hfewer, hjar, houtside pantry (by decide)⟩

end Stage

end MaterialBinding
