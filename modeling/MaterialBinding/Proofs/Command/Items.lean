import MaterialBinding.Proofs.Command.Requests

/-!
# Arguments as items

Arguments that can be taken apart are a row of items (`Item`).  An item is an option with its
value, which may be any argument at all, or a positional argument, which spells no option and does
not begin with two hyphens.  `Arguments.ofItems` reads off the items what they come to: the
positional arguments in their order, and for each option the last value that it is given.

An item of another option, or a positional argument, does the same before an option as behind it
(`Item.apply_set`).  So an option may be moved past any items that do not give it a value
(`Arguments.parse_eq_ok_iff_items`).
-/

namespace MaterialBinding.Command

/-! ## Spellings -/

/-- How an option is written, long and short. -/
def OptionName.spellings : OptionName → List String
  | purpose => ["--purpose", "-p"]
  | collection => ["--collection", "-c"]
  | settings => ["--settings", "-s"]

/-- An argument names the option that it is a spelling of. -/
theorem ofSpelling?_eq_some_iff {argument : String} {option : OptionName} :
    OptionName.ofSpelling? argument = some option ↔ argument ∈ option.spellings := by
  cases option <;> grind [OptionName.ofSpelling?, OptionName.spellings]

/-- An argument that is no spelling names no option. -/
theorem ofSpelling?_eq_none_iff {argument : String} :
    OptionName.ofSpelling? argument = none ↔
      ∀ option : OptionName, argument ∉ option.spellings := by
  simp only [Option.eq_none_iff_forall_ne_some, ne_eq, ofSpelling?_eq_some_iff]

/-- An argument looks like an option if it begins with two dashes, and only then. -/
theorem looksLikeOption_eq_false_iff {argument : String} :
    looksLikeOption argument = false ↔ ¬ ['-', '-'] <+: argument.toList := by
  rw [looksLikeOption, ← Bool.not_eq_true, List.isPrefixOf_iff_prefix]

/-! ## Options in another order -/

namespace Arguments

variable {arguments : Arguments} {option : OptionName} {value : String}

/-- Two different options may be given in either order. -/
theorem set_set_of_ne {other : OptionName} (hne : other ≠ option) (later : String) :
    (arguments.set option value).set other later =
      (arguments.set other later).set option value := by
  cases other <;> cases option <;> simp_all [set]

/-- An option may stand before or after an argument. -/
theorem push_set (argument : String) :
    (arguments.set option value).push argument = (arguments.push argument).set option value := by
  cases option <;> rfl

end Arguments

/-! ## Items -/

/-- An option with its value, or a positional argument. -/
inductive Item where
  | valued (option : OptionName) (spelling value : String)
      (spelled : spelling ∈ option.spellings)
  | positional (argument : String)
      (unspelled : ∀ option : OptionName, argument ∉ option.spellings)
      (plain : ¬ ['-', '-'] <+: argument.toList)

namespace Item

/-- The arguments that the item is written with. -/
def words : Item → List String
  | valued _ spelling value _ => [spelling, value]
  | positional argument _ _ => [argument]

/-- The positional argument that the item is. -/
def positional? : Item → Option String
  | valued _ _ _ _ => none
  | positional argument _ _ => some argument

/-- The value that the item gives the option. -/
def value? (option : OptionName) : Item → Option String
  | valued other _ value _ => if other = option then some value else none
  | positional _ _ _ => none

/-- The arguments so far, with the item. -/
def apply (arguments : Arguments) : Item → Arguments
  | valued option _ value _ => arguments.set option value
  | positional argument _ _ => arguments.push argument

variable {arguments : Arguments} {item : Item} {option : OptionName} {value : String}

/-- An item that gives an option no value may come before it or behind it. -/
theorem apply_set (hnone : item.value? option = none) :
    item.apply (arguments.set option value) = (item.apply arguments).set option value := by
  cases item with
  | valued other spelling later spelled =>
      have hne : other ≠ option := by
        intro heq
        simp [value?, heq] at hnone
      exact Arguments.set_set_of_ne hne later
  | positional argument => exact Arguments.push_set argument

end Item

/-- The arguments that items are written with. -/
def words (items : List Item) : List String := items.flatMap Item.words

/-- The last value that the items give the option. -/
def lastValue? (option : OptionName) (items : List Item) : Option String :=
  (items.filterMap (Item.value? option)).getLast?

/-- The first item gives the value of an option only if no later one does. -/
theorem lastValue?_cons (option : OptionName) (item : Item) (items : List Item) :
    lastValue? option (item :: items) = (lastValue? option items).or (item.value? option) := by
  rw [lastValue?, List.filterMap_cons]
  cases item.value? option with
  | none => rw [Option.or_none, lastValue?]
  | some value =>
      rw [List.getLast?_cons, lastValue?]
      cases (items.filterMap (Item.value? option)).getLast? <;> rfl

namespace Arguments

variable {arguments parsed : Arguments} {line : List String}

/-- What the items come to. -/
def ofItems (items : List Item) : Arguments where
  positional := items.filterMap Item.positional?
  purpose := (lastValue? .purpose items).getD ""
  collection := (lastValue? .collection items).getD ""
  settings := lastValue? .settings items

/-- Items that follow some arguments. -/
theorem foldl_apply (items : List Item) (arguments : Arguments) :
    items.foldl Item.apply arguments =
      { positional := arguments.positional ++ items.filterMap Item.positional?
        purpose := (lastValue? .purpose items).getD arguments.purpose
        collection := (lastValue? .collection items).getD arguments.collection
        settings := (lastValue? .settings items).or arguments.settings } := by
  induction items generalizing arguments with
  | nil => simp [lastValue?]
  | cons item rest ih =>
      rw [List.foldl_cons, ih]
      simp only [lastValue?_cons, List.filterMap_cons]
      cases item with
      | valued option spelling value spelled =>
          cases option <;> simp [Item.apply, set, Item.value?, Item.positional?]
      | positional argument => simp [Item.apply, push, Item.value?, Item.positional?]

/-- Items that are taken one by one come to what the list of all of them says. -/
theorem foldl_apply_nothing (items : List Item) :
    items.foldl Item.apply {} = ofItems items := by
  simp [foldl_apply, ofItems]

/-- Items are taken apart one after the other, whatever follows them. -/
theorem parseFrom_words (items : List Item) (arguments : Arguments) (after : List String) :
    parseFrom arguments (words items ++ after) =
      parseFrom (items.foldl Item.apply arguments) after := by
  induction items generalizing arguments with
  | nil => rfl
  | cons item rest ih =>
      rw [words, List.flatMap_cons, List.append_assoc, List.foldl_cons, ← ih]
      cases item with
      | valued option spelling value spelled =>
          exact parseFrom_option (ofSpelling?_eq_some_iff.mpr spelled)
      | positional argument unspelled plain =>
          exact parseFrom_plain (ofSpelling?_eq_none_iff.mpr unspelled)
            (looksLikeOption_eq_false_iff.mpr plain)

/-- What is taken apart to the end is a row of items. -/
theorem exists_items (hline : parseFrom arguments line = .ok parsed) :
    ∃ items, words items = line ∧ items.foldl Item.apply arguments = parsed := by
  induction arguments, line using parseFrom.induct with
  | case1 arguments => exact ⟨[], rfl, Except.ok.inj hline⟩
  | case2 arguments argument option hoption =>
      rw [parseFrom_lone hoption] at hline
      cases hline
  | case3 arguments argument option value rest hoption ih =>
      rw [parseFrom_option hoption] at hline
      obtain ⟨items, rfl, hitems⟩ := ih hline
      have hspelled : argument ∈ option.spellings := ofSpelling?_eq_some_iff.mp hoption
      exact ⟨.valued option argument value hspelled :: items, rfl, hitems⟩
  | case4 arguments argument rest hoption hlooks =>
      rw [parseFrom_unknown hoption hlooks] at hline
      cases hline
  | case5 arguments argument rest hoption hlooks ih =>
      have hlooks : looksLikeOption argument = false := Bool.eq_false_iff.mpr hlooks
      rw [parseFrom_plain hoption hlooks] at hline
      obtain ⟨items, rfl, hitems⟩ := ih hline
      have hunspelled : ∀ option : OptionName, argument ∉ option.spellings :=
        ofSpelling?_eq_none_iff.mp hoption
      have hplain : ¬ ['-', '-'] <+: argument.toList := looksLikeOption_eq_false_iff.mp hlooks
      exact ⟨.positional argument hunspelled hplain :: items, rfl, hitems⟩

/-- An option may come before or behind items that give it no value. -/
theorem foldl_apply_set {items : List Item} {option : OptionName} {value : String}
    (hnone : ∀ item ∈ items, item.value? option = none) :
    items.foldl Item.apply (arguments.set option value) =
      (items.foldl Item.apply arguments).set option value := by
  induction items generalizing arguments with
  | nil => rfl
  | cons item rest ih =>
      obtain ⟨hitem, hrest⟩ := List.forall_mem_cons.mp hnone
      rw [List.foldl_cons, Item.apply_set hitem]
      exact ih hrest

/-- **Arguments are taken apart by their grammar**, and options may stand anywhere: a line is taken
apart exactly if it is a row of items, and moving an option past items that give it no value changes
nothing, whatever comes behind. -/
theorem parse_eq_ok_iff_items :
    (∀ line arguments, parse line = .ok arguments ↔
      ∃ items, words items = line ∧ ofItems items = arguments) ∧
    ∀ (before between : List Item) (after : List String) (option : OptionName)
      (spelling value : String), spelling ∈ option.spellings →
      (∀ item ∈ between, item.value? option = none) →
      parse (words before ++ spelling :: value :: (words between ++ after)) =
        parse (words before ++ (words between ++ spelling :: value :: after)) := by
  refine ⟨fun line arguments => ⟨fun hline => ?_, ?_⟩, ?_⟩
  · obtain ⟨items, hwords, hitems⟩ := exists_items hline
    exact ⟨items, hwords, (foldl_apply_nothing items).symm.trans hitems⟩
  · rintro ⟨items, rfl, rfl⟩
    have hwhole : parseFrom {} (words items ++ []) = parseFrom (ofItems items) [] := by
      rw [parseFrom_words, foldl_apply_nothing]
    rwa [List.append_nil] at hwhole
  · intro before between after option spelling value hspelled hnone
    have hoption : OptionName.ofSpelling? spelling = some option :=
      ofSpelling?_eq_some_iff.mpr hspelled
    rw [parse, parse, parseFrom_words, parseFrom_words, parseFrom_option hoption,
      parseFrom_words, parseFrom_words, parseFrom_option hoption, foldl_apply_set hnone]

/-- A scene. -/
def caveScene : Item :=
  .positional "cave.json" (by rintro (_ | _ | _) <;> decide) (by decide)

/-- A path in the scene. -/
def cavePool : Item :=
  .positional "/Cave/Pool" (by rintro (_ | _ | _) <;> decide) (by decide)

/-- Settings in a file that is named like an option. -/
def caveSettings : Item := .valued .settings "-s" "--purpose" (by decide)

/-- Two arguments and three options: the later purpose counts, the file of the settings is named
like an option, and the first purpose may as well stand behind the path. -/
theorem caveLine_parsed :
    parse ["-p", "full", "cave.json", "-s", "--purpose", "/Cave/Pool", "--purpose", "preview"] =
        .ok { positional := ["cave.json", "/Cave/Pool"], purpose := "preview",
              settings := some "--purpose" } ∧
      ("-p" ∈ OptionName.purpose.spellings ∧
        ∀ item ∈ [caveScene, caveSettings, cavePool], item.value? .purpose = none) ∧
      parse ["-p", "full", "cave.json", "-s", "--purpose", "/Cave/Pool", "--purpose", "preview"] =
        parse
          ["cave.json", "-s", "--purpose", "/Cave/Pool", "-p", "full", "--purpose", "preview"] := by
  have hnone : ∀ item ∈ [caveScene, caveSettings, cavePool], item.value? .purpose = none := by
    simp [caveScene, caveSettings, cavePool, Item.value?]
  obtain ⟨hparse, hmove⟩ := parse_eq_ok_iff_items
  let first : Item := .valued .purpose "-p" "full" (by decide)
  let second : Item := .valued .purpose "--purpose" "preview" (by decide)
  have hspelled : "-p" ∈ OptionName.purpose.spellings := by decide
  refine ⟨(hparse _ _).mpr ⟨[first, caveScene, caveSettings, cavePool, second], rfl, rfl⟩,
    ⟨hspelled, hnone⟩, ?_⟩
  exact hmove [] [caveScene, caveSettings, cavePool] ["--purpose", "preview"] .purpose "-p" "full"
    hspelled hnone

end Arguments

end MaterialBinding.Command
