import MaterialBinding.Proofs.Collection.Flattening
import MaterialBinding.Proofs.Stage.History

/-!
# Which entry of a path counts

Of several entries for one path the last one counts, and the excludes of a collection come after
its includes.  So a collection keeps out what it excludes itself.  What a nested collection
excludes stands in the middle of the includes around it: an include that comes later, or a
collection that comes later and has an entry for the path, lets the path in again.

`Stage.KeepsOut` says when the last entry of a path is an exclude, read off what is authored.
`says_entriesOf` proves this along the nesting, and `contains_eq_false_iff_keepsOut` puts it in
terms of membership.
-/

namespace MaterialBinding

/-- Of the items that speak, the last one is such that `out` holds of it. -/
def LastSpeaker {α : Type} (speaks out : α → Prop) (items : List α) : Prop :=
  ∃ before item after, items = before ++ item :: after ∧ out item ∧ ∀ later ∈ after, ¬ speaks later

/-- The last speaker stands in the rest, or is the first item if nobody in the rest speaks. -/
theorem lastSpeaker_cons {α : Type} {speaks out : α → Prop} {item : α} {items : List α} :
    LastSpeaker speaks out (item :: items) ↔
      (out item ∧ ∀ later ∈ items, ¬ speaks later) ∨ LastSpeaker speaks out items := by
  constructor
  · intro h
    obtain ⟨before, last, after, hitems, hlast, hafter⟩ := h
    rcases List.cons_eq_append_iff.mp hitems with ⟨_, heq⟩ | ⟨rest, _, heq⟩
    · injection heq with hfirst hrest
      subst hfirst hrest
      exact Or.inl ⟨hlast, hafter⟩
    · exact Or.inr ⟨rest, last, after, heq, hlast, hafter⟩
  · intro h
    rcases h with ⟨hitem, hafter⟩ | ⟨before, last, after, heq, hlast, hafter⟩
    · exact ⟨[], item, items, rfl, hitem, hafter⟩
    · exact ⟨item :: before, last, after, by rw [heq]; rfl, hlast, hafter⟩

namespace Stage

/-- The collections that are flattened with a collection: itself, and those on the stage that it
includes, directly or through others. -/
inductive TakesIn (stage : Stage) : Collection → Collection → Prop
  | itself (collection : Collection) : TakesIn stage collection collection
  | nested {collection inner other : Collection} {address : ScenePath}
      (hmem : address ∈ collection.includes) (hat : stage.collectionAt? address = some inner)
      (hinner : TakesIn stage inner other) : TakesIn stage collection other

/-- Some collection that is flattened with this one makes an entry for the path. -/
inductive Mentions (stage : Stage) (path : ScenePath) : Collection → Prop
  | root {collection : Collection} (hroot : collection.includeRoot = true)
      (hpath : path = .root) : Mentions stage path collection
  | included {collection : Collection} (hmem : path ∈ collection.includes)
      (hplain : path.asCollection? = none) : Mentions stage path collection
  | excluded {collection : Collection} (hmem : path ∈ collection.excludes) :
      Mentions stage path collection
  | nested {collection inner : Collection} {address : ScenePath}
      (hmem : address ∈ collection.includes) (hat : stage.collectionAt? address = some inner)
      (hinner : Mentions stage path inner) : Mentions stage path collection

/-- One include of a collection makes an entry for the path: it is the path itself, or it
addresses a collection that mentions it. -/
def IncludeMentions (stage : Stage) (path item : ScenePath) : Prop :=
  (item = path ∧ path.asCollection? = none) ∨
    ∃ inner, stage.collectionAt? item = some inner ∧ stage.Mentions path inner

/-- The last entry for the path is an exclude: the collection has one of its own, or the last
include that mentions the path is a nested collection which keeps it out. -/
inductive KeepsOut (stage : Stage) (path : ScenePath) : Collection → Prop
  | own {collection : Collection} (hmem : path ∈ collection.excludes) :
      KeepsOut stage path collection
  | nested {collection inner : Collection} {address : ScenePath} {before after : List ScenePath}
      (hincludes : collection.includes = before ++ address :: after)
      (hat : stage.collectionAt? address = some inner) (hinner : KeepsOut stage path inner)
      (hafter : ∀ later ∈ after, ¬ stage.IncludeMentions path later) :
      KeepsOut stage path collection

variable {stage : Stage} {path : ScenePath} {collection other : Collection}

/-- What a nested collection mentions is mentioned. -/
theorem TakesIn.mentions (h : stage.TakesIn collection other) (hother : stage.Mentions path other) :
    stage.Mentions path collection := by
  induction h with
  | itself collection => exact hother
  | nested hmem hat _ ih => exact .nested hmem hat (ih hother)

/-- A collection mentions a path by including the root, by an exclude, or through an include. -/
theorem mentions_iff :
    stage.Mentions path collection ↔
      (collection.includeRoot = true ∧ path = .root) ∨ path ∈ collection.excludes ∨
        ∃ item ∈ collection.includes, stage.IncludeMentions path item := by
  constructor
  · intro h
    cases h with
    | root hroot hpath => exact Or.inl ⟨hroot, hpath⟩
    | included hmem hplain => exact Or.inr (Or.inr ⟨path, hmem, Or.inl ⟨rfl, hplain⟩⟩)
    | excluded hmem => exact Or.inr (Or.inl hmem)
    | nested hmem hat hinner => exact Or.inr (Or.inr ⟨_, hmem, Or.inr ⟨_, hat, hinner⟩⟩)
  · intro h
    rcases h with ⟨hroot, hpath⟩ | hmem | ⟨item, hmem, hitem⟩
    · exact .root hroot hpath
    · exact .excluded hmem
    · rcases hitem with ⟨rfl, hplain⟩ | ⟨inner, hat, hinner⟩
      · exact .included hmem hplain
      · exact .nested hmem hat hinner

/-- A collection keeps a path out by its own exclude, or through a nested collection that does so
and after which no include mentions the path. -/
theorem keepsOut_iff :
    stage.KeepsOut path collection ↔
      path ∈ collection.excludes ∨
        ∃ before item after, collection.includes = before ++ item :: after ∧
          (∃ inner, stage.collectionAt? item = some inner ∧ stage.KeepsOut path inner) ∧
          ∀ later ∈ after, ¬ stage.IncludeMentions path later := by
  constructor
  · intro h
    cases h with
    | own hmem => exact Or.inl hmem
    | nested hincludes hat hinner hafter =>
        exact Or.inr ⟨_, _, _, hincludes, ⟨_, hat, hinner⟩, hafter⟩
  · intro h
    rcases h with hmem | ⟨before, item, after, hincludes, ⟨inner, hat, hinner⟩, hafter⟩
    · exact .own hmem
    · exact .nested hincludes hat hinner hafter

end Stage

namespace MemberRules

open Stage

variable {stage : Stage} {path : ScenePath} {collection : Collection}

/-- The last entry of a path is looked for from the end. -/
theorem rule?_append (first second : List (ScenePath × Rule)) (path : ScenePath) :
    rule? ⟨first ++ second⟩ path = (rule? ⟨second⟩ path).or (rule? ⟨first⟩ path) := by
  simp only [rule?, List.reverse_append, List.lookup_append]

/-- Under one rule for several paths, those have the rule and no others. -/
theorem lookup_map_rule (rule : Rule) (paths : List ScenePath) (path : ScenePath) :
    (paths.map fun path => (path, rule)).lookup path =
      if path ∈ paths then some rule else none := by
  induction paths with
  | nil => rfl
  | cons first rest ih =>
      rw [List.map_cons, List.lookup_cons, ih]
      by_cases hfirst : path = first
      · simp [hfirst]
      · simp [beq_eq_false_iff_ne.mpr hfirst, hfirst]

/-- Entries with one rule give it to each of their paths. -/
theorem rule?_map (rule : Rule) (paths : List ScenePath) (path : ScenePath) :
    rule? ⟨paths.map fun path => (path, rule)⟩ path =
      if path ∈ paths then some rule else none := by
  rw [rule?, ← List.map_reverse, lookup_map_rule]
  simp only [List.mem_reverse]

/-- One entry is a rule for its own path and for no other. -/
theorem rule?_singleton (item : ScenePath) (rule : Rule) (path : ScenePath) :
    rule? ⟨[(item, rule)]⟩ path = if path = item then some rule else none := by
  have hmap : rule? ⟨[(item, rule)]⟩ path = if path ∈ [item] then some rule else none :=
    rule?_map rule [item] path
  rw [hmap]
  simp only [List.mem_singleton]

/-- What entries say about a path: whether there is one for it, and whether the last one is an
exclude. -/
structure Says (entries : List (ScenePath × Rule)) (path : ScenePath) (speaks out : Prop) :
    Prop where
  some_iff : (rule? ⟨entries⟩ path).isSome = true ↔ speaks
  excluded_iff : rule? ⟨entries⟩ path = some .excluded ↔ out

variable {entries first second : List (ScenePath × Rule)} {speaks speaks' out out' : Prop}

/-- What entries say can be put in other words. -/
theorem Says.congr (h : Says entries path speaks out) (hspeaks : speaks ↔ speaks')
    (hout : out ↔ out') : Says entries path speaks' out' :=
  ⟨h.some_iff.trans hspeaks, h.excluded_iff.trans hout⟩

/-- **Later entries win**: an exclude counts unless an entry for its path comes later. -/
theorem Says.append (hfirst : Says first path speaks out)
    (hsecond : Says second path speaks' out') :
    Says (first ++ second) path (speaks ∨ speaks') (out' ∨ (out ∧ ¬ speaks')) where
  some_iff := by
    rw [rule?_append, Option.isSome_or, Bool.or_eq_true, hfirst.some_iff, hsecond.some_iff,
      or_comm]
  excluded_iff := by
    rw [rule?_append, Option.or_eq_some_iff, hfirst.excluded_iff, hsecond.excluded_iff,
      ← hsecond.some_iff, Option.not_isSome_iff_eq_none, and_comm]

/-- Entries that include paths speak of these, and keep none out. -/
theorem says_included (expansion : ExpansionRule) (paths : List ScenePath) (path : ScenePath) :
    Says (paths.map fun path => (path, .included expansion)) path (path ∈ paths) False := by
  constructor <;> rw [rule?_map] <;> split <;> simp_all

/-- Entries that exclude paths speak of these, and keep them out. -/
theorem says_excluded (paths : List ScenePath) (path : ScenePath) :
    Says (paths.map fun path => (path, .excluded)) path (path ∈ paths) (path ∈ paths) := by
  constructor <;> rw [rule?_map] <;> split <;> simp_all

/-- No entries say nothing. -/
theorem says_nil (path : ScenePath) : Says [] path False False :=
  ⟨by simp [rule?], by simp [rule?]⟩

/-- What is written for the root speaks of the root, if it is included, and keeps nothing out. -/
theorem says_rootEntries :
    Says (rootEntries collection) path (collection.includeRoot = true ∧ path = .root) False := by
  rw [rootEntries]
  cases collection.includeRoot with
  | false => exact (says_nil path).congr (by simp) Iff.rfl
  | true => exact (says_included _ [.root] path).congr (by simp) Iff.rfl

/-- Of what all includes give, the last include with an entry for the path decides. -/
theorem says_flatten {speaks out : ScenePath → Prop} {items : List ScenePath}
    {parts : List (List (ScenePath × Rule))}
    (hparts : List.Forall₂ (fun item part => Says part path (speaks item) (out item)) items parts) :
    Says parts.flatten path (∃ item ∈ items, speaks item) (LastSpeaker speaks out items) := by
  induction hparts with
  | nil => exact (says_nil path).congr (by simp) (by simp [LastSpeaker])
  | cons hpart _ ih =>
      refine (hpart.append ih).congr (by rw [List.exists_mem_cons_iff]) ?_
      rw [lastSpeaker_cons, or_comm]
      simp only [not_exists, not_and]

/-- One include says what a nested collection says, if it addresses one; else it only includes
itself, unless it addresses a collection that is missing. -/
theorem says_includedEntries {depth : Nat} {inside : List ScenePath} {item : ScenePath}
    {expansion : ExpansionRule} {part : List (ScenePath × Rule)}
    (hpart : includedEntries stage depth inside (.included expansion) item = .ok part)
    (hnested : ∀ inner entries, entriesOf stage depth inside item inner = .ok entries →
      Says entries path (stage.Mentions path inner) (stage.KeepsOut path inner)) :
    Says part path (stage.IncludeMentions path item)
      (∃ inner, stage.collectionAt? item = some inner ∧ stage.KeepsOut path inner) := by
  cases hat : stage.collectionAt? item with
  | some nested =>
      rw [includedEntries_of_collectionAt? hat] at hpart
      have hplain : ¬ (item = path ∧ path.asCollection? = none) := by
        intro hitem
        obtain ⟨rfl, hplain⟩ := hitem
        simp [collectionAt?, hplain] at hat
      refine (hnested nested part hpart).congr ?_ ?_
      · simp [IncludeMentions, hat, hplain]
      · simp
  | none =>
      rw [includedEntries, hat] at hpart
      cases haddress : item.asCollection? with
      | none =>
          rw [haddress] at hpart
          obtain rfl := Except.ok.inj hpart
          refine (says_included expansion [item] path).congr ?_ (by simp)
          have hself : path = item ↔ item = path ∧ path.asCollection? = none := by
            constructor
            · intro heq
              subst heq
              exact ⟨rfl, haddress⟩
            · exact fun hboth => hboth.1.symm
          simp [IncludeMentions, hat, hself]
      | some target =>
          rw [haddress] at hpart
          obtain rfl := Except.ok.inj hpart
          have hplain : ¬ (item = path ∧ path.asCollection? = none) := by
            intro hitem
            obtain ⟨rfl, hplain⟩ := hitem
            rw [hplain] at haddress
            cases haddress
          refine (says_nil path).congr ?_ (by simp)
          simp [IncludeMentions, hat, hplain]

/-- **What a collection says**, along the nesting: it has an entry for the path exactly if the path
is mentioned, and the last one is an exclude exactly if the path is kept out. -/
theorem says_entriesOf {depth : Nat} {inside : List ScenePath} {address : ScenePath}
    (hentries : entriesOf stage depth inside address collection = .ok entries) :
    Says entries path (stage.Mentions path collection) (stage.KeepsOut path collection) := by
  induction depth generalizing inside address collection entries with
  | zero => cases hentries
  | succ depth ih =>
      obtain ⟨_, parts, hparts, rfl⟩ := entriesOf_eq_ok_iff.mp hentries
      have hincluded := says_flatten (hparts.imp fun item part hpart =>
        says_includedEntries hpart fun inner entries hinner => ih hinner)
      refine ((says_rootEntries.append hincluded).append (says_excluded _ path)).congr ?_ ?_
      · rw [mentions_iff, or_assoc, or_comm (b := path ∈ collection.excludes)]
      · rw [keepsOut_iff, LastSpeaker]
        by_cases hexcluded : path ∈ collection.excludes
        · simp [hexcluded]
        · simp [hexcluded]

/-- A path with a rule of its own is a member if this rule takes in. -/
theorem contains_of_rule? {rules : MemberRules} {rule : Rule}
    (hrule : rules.rule? path = some rule) : rules.contains path = rule.takesIn := by
  rw [contains, hrule]

/-- **When an excluded path stays out.**  A path that the collection or a nested one excludes is no
member exactly if no include after that lets it in again. -/
theorem contains_eq_false_iff_keepsOut {owner : ScenePath} {rules : MemberRules}
    {other : Collection} (hcompute : compute stage owner collection = .ok rules)
    (htakes : stage.TakesIn collection other) (hexclude : path ∈ other.excludes) :
    rules.contains path = false ↔ stage.KeepsOut path collection := by
  obtain ⟨address, _, hentries⟩ := compute_eq_ok_iff.mp hcompute
  have hsays : Says rules.entries path (stage.Mentions path collection)
      (stage.KeepsOut path collection) := says_entriesOf hentries
  have hsome : (rules.rule? path).isSome = true :=
    hsays.some_iff.mpr (htakes.mentions (.excluded hexclude))
  obtain ⟨rule, hrule⟩ := Option.isSome_iff_exists.mp hsome
  rw [← hsays.excluded_iff, contains_of_rule? hrule]
  change rule.takesIn = false ↔ rules.rule? path = some .excluded
  rw [hrule]
  cases rule <;> simp [Rule.takesIn]

end MemberRules

namespace Stage

/-- A stall with a lantern that is not for sale: its collection `sold` excludes the lantern. -/
def lanternHistory : List Edit :=
  let stall : PrimPath := .child .root ⟨"Stall", by decide⟩
  [.definePrim (stall.child ⟨"Lantern", by decide⟩),
    .defineCollection stall { name := "sold", excludes := [stall.child ⟨"Lantern", by decide⟩] }]

/-- An offer that has the lantern first and then what is sold, which leaves the lantern out. -/
theorem lantern_kept_out :
    let stall : PrimPath := .child .root ⟨"Stall", by decide⟩
    let lantern : PrimPath := stall.child ⟨"Lantern", by decide⟩
    let sold : ScenePath := .ofProperty .root ⟨"Stall", by decide⟩ ⟨"collection:sold", by decide⟩
    ∃ rules, MemberRules.compute (lanternHistory.foldl Edit.run {}) stall
        { name := "offer", includes := [lantern, sold] } = .ok rules ∧
      rules.contains lantern = false := by
  intro stall lantern sold
  have hcompute : MemberRules.compute (lanternHistory.foldl Edit.run {}) stall
      { name := "offer", includes := [lantern, sold] } =
        .ok ⟨[(lantern, .included .expandPrims), (lantern, .excluded)]⟩ := by decide
  have hat : (lanternHistory.foldl Edit.run {}).collectionAt? sold =
      some { name := "sold", excludes := [lantern] } := by decide
  have htakes : (lanternHistory.foldl Edit.run {}).TakesIn
      { name := "offer", includes := [lantern, sold] } { name := "sold", excludes := [lantern] } :=
    .nested (by simp) hat (.itself _)
  have hexclude : (lantern : ScenePath) ∈ [(lantern : ScenePath)] := List.mem_singleton_self _
  have hiff := MemberRules.contains_eq_false_iff_keepsOut hcompute htakes hexclude
  have hincludes : [(lantern : ScenePath), sold] = [(lantern : ScenePath)] ++ sold :: [] := rfl
  exact ⟨_, hcompute, hiff.mpr (.nested hincludes hat (.own hexclude) nofun)⟩

/-- In the other order the offer lets the lantern in again, so not every exclude keeps its path
out. -/
theorem exists_let_in_again : ¬ ∀ stage, Reachable stage → ∀ owner collection rules,
    MemberRules.compute stage owner collection = .ok rules →
    ∀ other path, stage.TakesIn collection other → path ∈ other.excludes →
      rules.contains path = false := by
  intro hall
  let stall : PrimPath := .child .root ⟨"Stall", by decide⟩
  let lantern : PrimPath := stall.child ⟨"Lantern", by decide⟩
  let sold : ScenePath := .ofProperty .root ⟨"Stall", by decide⟩ ⟨"collection:sold", by decide⟩
  have hcompute : MemberRules.compute (lanternHistory.foldl Edit.run {}) stall
      { name := "offer", includes := [sold, lantern] } =
        .ok ⟨[(lantern, .excluded), (lantern, .included .expandPrims)]⟩ := by decide
  have hat : (lanternHistory.foldl Edit.run {}).collectionAt? sold =
      some { name := "sold", excludes := [lantern] } := by decide
  have htakes : (lanternHistory.foldl Edit.run {}).TakesIn
      { name := "offer", includes := [sold, lantern] } { name := "sold", excludes := [lantern] } :=
    .nested (by simp) hat (.itself _)
  have hout := hall _ (Reachable.new.foldl lanternHistory) _ _ _ hcompute _ lantern htakes (by simp)
  exact absurd hout (by decide)

end Stage

end MaterialBinding
