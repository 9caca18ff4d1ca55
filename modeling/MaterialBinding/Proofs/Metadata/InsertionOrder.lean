import MaterialBinding.Proofs.Metadata
import Mathlib.Data.List.Induction
import Mathlib.Data.Set.Card

/-!
# Metadata in the order of insertion

Metadata starts empty and goes through any number of calls (`Metadata.Call`).  A call comes down to
changes of single keys (`Metadata.Change`); collecting pairs begins with new metadata and so drops
all keys first.

What metadata must be can be told from the changes alone, by what happened `Since`: a key is
`Present` if it was put and not dropped since, its value is that of its `LastPut`, and its place is
that of the put by which it arrived (`ArrivedAt`).  `Recorded` says that metadata is just this.  One
change keeps it (`Recorded.apply`), hence all do (`insertionOrdered_run`); and there is no other
metadata with the same history (`Recorded.unique`).
-/

namespace MaterialBinding

/-! ## Since -/

section Since

variable {α : Type} {Event Event' : List α → α → Prop} {Stays : α → Prop} {history : List α}

/-- `Event` was the case at some item of the history, with what came before it, and `Stays` has been
the case at every item since. -/
def Since (Event : List α → α → Prop) (Stays : α → Prop) (history : List α) : Prop :=
  ∃ before item after, history = before ++ item :: after ∧ Event before item ∧
    ∀ later ∈ after, Stays later

/-- Without a history there is no event. -/
theorem not_since_nil : ¬ Since Event Stays [] := by
  rintro ⟨before, item, after, heq, _⟩
  exact List.append_ne_nil_of_right_ne_nil before (List.cons_ne_nil item after) heq.symm

/-- What happens now is there since now. -/
theorem Since.now {item : α} (hevent : Event history item) :
    Since Event Stays (history ++ [item]) :=
  ⟨history, item, [], rfl, hevent, by simp⟩

/-- What is there since some time stays if the next item lets it stay. -/
theorem Since.later {item : α} (h : Since Event Stays history) (hitem : Stays item) :
    Since Event Stays (history ++ [item]) := by
  obtain ⟨before, first, after, rfl, hevent, hstays⟩ := h
  refine ⟨before, first, after ++ [item], by simp, hevent, fun later hlater => ?_⟩
  obtain hlater | hlater := List.mem_append.mp hlater
  · exact hstays later hlater
  · rwa [List.mem_singleton.mp hlater]

/-- With one more item in the history, either this is the event, or the event lies further back and
the item lets it stay. -/
theorem since_concat (item : α) :
    Since Event Stays (history ++ [item]) ↔
      Event history item ∨ Stays item ∧ Since Event Stays history := by
  constructor
  · rintro ⟨before, first, after, heq, hevent, hstays⟩
    obtain rfl | ⟨rest, last, rfl⟩ := List.eq_nil_or_concat after
    · obtain ⟨rfl, hlast⟩ := List.append_inj' heq rfl
      obtain rfl : item = first := by simpa using hlast
      exact Or.inl hevent
    · rw [List.concat_eq_append] at heq hstays
      rw [← List.cons_append, ← List.append_assoc] at heq
      obtain ⟨rfl, hlast⟩ := List.append_inj' heq rfl
      obtain rfl : item = last := by simpa using hlast
      refine Or.inr ⟨hstays _ (by simp), before, first, rest, rfl, hevent, fun later hlater => ?_⟩
      exact hstays later (List.mem_append_left _ hlater)
  · rintro (hevent | ⟨hitem, hsince⟩)
    · exact Since.now hevent
    · exact hsince.later hitem

/-- A weaker event is there since the same time. -/
theorem Since.imp (himp : ∀ before item, Event before item → Event' before item) :
    Since Event Stays history → Since Event' Stays history
  | ⟨before, item, after, heq, hevent, hstays⟩ =>
    ⟨before, item, after, heq, himp before item hevent, hstays⟩

end Since

namespace Metadata

variable {data : Metadata} {key : String}

/-! ## Removing -/

/-- Looks for the place of the key, takes out the entry there and returns its value. -/
def remove (data : Metadata) (key : String) : Option String × Metadata :=
  match data.entries.findIdx? (·.1 = key) with
  | some place => (data.entries[place]?.map Prod.snd, ⟨data.entries.eraseIdx place⟩)
  | none => (none, data)

/-- An entry of another key is passed over. -/
theorem remove_cons_of_ne {k : String} (hk : k ≠ key) (v : String) (rest : List (String × String)) :
    remove ⟨(k, v) :: rest⟩ key =
      ((remove ⟨rest⟩ key).1, ⟨(k, v) :: (remove ⟨rest⟩ key).2.entries⟩) := by
  simp only [remove, List.findIdx?_cons, decide_eq_false hk, Bool.false_eq_true, if_false]
  cases rest.findIdx? (·.1 = key) <;> rfl

/-- Removing is looking up and erasing. -/
theorem remove_eq (data : Metadata) (key : String) :
    data.remove key = (data.get? key, data.erase key) := by
  obtain ⟨entries⟩ := data
  induction entries with
  | nil => rfl
  | cons entry rest ih =>
      obtain ⟨k, v⟩ := entry
      by_cases hk : k = key
      · simp [remove, get?, erase, eraseEntry, List.findIdx?_cons, hk]
      · have hne : key ≠ k := fun h => hk h.symm
        rw [remove_cons_of_ne hk, ih]
        simp only [get?, erase, eraseEntry, lookup_entry, if_neg hk, if_neg hne]

/-! ## Calls and changes -/

/-- One call that changes metadata, with its arguments. -/
inductive Call where
  | set (key value : String)
  | remove (key : String)
  | setStrength (token : String)
  | collect (pairs : List (String × String))

/-- One change of metadata. -/
inductive Change where
  | put (key value : String)
  | drop (key : String)
  | dropAll

namespace Change

/-- The metadata after the change. -/
def apply (data : Metadata) : Change → Metadata
  | put key value => data.set key value
  | drop key => data.erase key
  | dropAll => {}

/-- The change gives the key a value. -/
def Puts (key : String) : Change → Prop
  | put other _ => key = other
  | drop _ | dropAll => False

/-- The change takes the key out, if it is there. -/
def Drops (key : String) : Change → Prop
  | put _ _ => False
  | drop other => key = other
  | dropAll => True

/-- No change puts a key and drops it. -/
theorem Puts.not_drops {change : Change} (hputs : change.Puts key) : ¬ change.Drops key := by
  cases change <;> simp_all [Puts, Drops]

end Change

namespace Call

/-- The metadata after the call. -/
def run (data : Metadata) : Call → Metadata
  | set key value => data.set key value
  | remove key => (data.remove key).2
  | setStrength token => data.set strengthKey token
  | collect pairs => ofList pairs

/-- The changes that the call comes down to. -/
def changes : Call → List Change
  | set key value => [.put key value]
  | remove key => [.drop key]
  | setStrength token => [.put strengthKey token]
  | collect pairs => .dropAll :: pairs.map fun pair => .put pair.1 pair.2

/-- A call does to the entries what its changes do one by one. -/
theorem run_eq_foldl (data : Metadata) (call : Call) :
    call.run data = call.changes.foldl Change.apply data := by
  cases call with
  | set | setStrength => rfl
  | remove key => rw [run, remove_eq]; rfl
  | collect pairs => rw [run, changes, List.foldl_cons, List.foldl_map]; rfl

end Call

/-! ## What the history says -/

variable {history : List Change} {change : Change} {value : String} {place : Nat}

/-- The key was put, and has not been dropped since. -/
def Present (history : List Change) (key : String) : Prop :=
  Since (fun _ change => change.Puts key) (fun change => ¬ change.Drops key) history

/-- The key was put with the value, and has been neither put nor dropped since. -/
def LastPut (history : List Change) (key value : String) : Prop :=
  Since (fun _ change => change = .put key value)
    (fun change => ¬ change.Puts key ∧ ¬ change.Drops key) history

/-- The key was put at that place where it was not present, and has not been dropped since. -/
def ArrivedAt (history : List Change) (key : String) (place : Nat) : Prop :=
  Since (fun before change => change.Puts key ∧ ¬ Present before key ∧ before.length = place)
    (fun change => ¬ change.Drops key) history

/-- The one key arrived at an earlier place than the other. -/
def ArrivedBefore (history : List Change) (earlier later : String) : Prop :=
  ∃ first second, ArrivedAt history earlier first ∧ ArrivedAt history later second ∧ first < second

/-- A key that arrived and was not dropped since is present. -/
theorem ArrivedAt.present (h : ArrivedAt history key place) : Present history key :=
  Since.imp (fun _ _ hevent => hevent.1) h

/-- A key that is present arrived somewhere in the history. -/
theorem Present.exists_arrivedAt (h : Present history key) :
    ∃ place < history.length, ArrivedAt history key place := by
  induction history using List.reverseRecOn with
  | nil => exact absurd h not_since_nil
  | append_singleton history change ih =>
      rw [List.length_append, List.length_singleton]
      -- A put of a key that is present leaves it where it arrived before.
      by_cases hpresent : Present history key
      · have hstays : ¬ change.Drops key := by
          obtain hputs | ⟨hstays, _⟩ := (since_concat change).mp h
          · exact hputs.not_drops
          · exact hstays
        obtain ⟨place, hlt, harrived⟩ := ih hpresent
        exact ⟨place, by omega, Since.later harrived hstays⟩
      · obtain hputs | ⟨_, hbefore⟩ := (since_concat change).mp h
        · exact ⟨history.length, by omega, Since.now ⟨hputs, hpresent, rfl⟩⟩
        · exact absurd hbefore hpresent

/-- A key arrived at one place only. -/
theorem ArrivedAt.unique {other : Nat} (h : ArrivedAt history key place)
    (hother : ArrivedAt history key other) : place = other := by
  induction history using List.reverseRecOn with
  | nil => exact absurd h not_since_nil
  | append_singleton history change ih =>
      -- It cannot arrive with the last change and have arrived before: then it was present.
      obtain ⟨_, habsent, rfl⟩ | ⟨_, harrived⟩ := (since_concat change).mp h
      · obtain ⟨_, _, hlength⟩ | ⟨_, harrived⟩ := (since_concat change).mp hother
        · exact hlength
        · exact absurd (ArrivedAt.present harrived) habsent
      · obtain ⟨_, habsent, _⟩ | ⟨_, harrived'⟩ := (since_concat change).mp hother
        · exact absurd (ArrivedAt.present harrived) habsent
        · exact ih harrived harrived'

/-- Of two keys only one arrived before the other. -/
theorem ArrivedBefore.asymm {earlier later : String} (h : ArrivedBefore history earlier later) :
    ¬ ArrivedBefore history later earlier := by
  rintro ⟨first', second', hfirst', hsecond', hlt'⟩
  obtain ⟨first, second, hfirst, hsecond, hlt⟩ := h
  have hsame := hfirst.unique hsecond'
  have hsame' := hsecond.unique hfirst'
  omega

/-- Keys that a change does not drop keep their order. -/
theorem ArrivedBefore.concat {earlier later : String} (h : ArrivedBefore history earlier later)
    (hearlier : ¬ change.Drops earlier) (hlater : ¬ change.Drops later) :
    ArrivedBefore (history ++ [change]) earlier later := by
  obtain ⟨first, second, hfirst, hsecond, hlt⟩ := h
  exact ⟨first, second, Since.later hfirst hearlier, Since.later hsecond hlater, hlt⟩

/-- A key that arrives now comes behind all that are present. -/
theorem Present.arrivedBefore_concat {earlier : String} (h : Present history earlier)
    (hputs : change.Puts key) (habsent : ¬ Present history key) (hstays : ¬ change.Drops earlier) :
    ArrivedBefore (history ++ [change]) earlier key := by
  obtain ⟨place, hlt, harrived⟩ := h.exists_arrivedAt
  exact ⟨place, history.length, Since.later harrived hstays,
    Since.now ⟨hputs, habsent, rfl⟩, hlt⟩

/-! ## One change after the other -/

/-- The metadata is a map in the order of insertion. -/
structure Recorded (history : List Change) (data : Metadata) : Prop where
  /-- No key stands twice. -/
  nodup : data.keys.Nodup
  /-- The keys are those that are present. -/
  mem_keys : ∀ key, key ∈ data.keys ↔ Present history key
  /-- A key has the value of its last put, if it was not dropped since, and otherwise none. -/
  get? : ∀ key value, data.get? key = some value ↔ LastPut history key value
  /-- The keys stand in the order in which they arrived. -/
  ordered : data.keys.Pairwise (ArrivedBefore history)

namespace Recorded

/-- Before any change there are no entries. -/
theorem nil : Recorded [] {} where
  nodup := List.nodup_nil
  mem_keys _ := ⟨nofun, fun h => absurd h not_since_nil⟩
  get? _ _ := ⟨nofun, fun h => absurd h not_since_nil⟩
  ordered := List.Pairwise.nil

variable (h : Recorded history data)

include h

/-- A key that is put is recorded: in its place if it was present, or else as the last. -/
theorem put (key value : String) :
    Recorded (history ++ [.put key value]) (data.set key value) where
  nodup := keys_nodup_set h.nodup value
  mem_keys other := by
    rw [mem_keys_set, Present, since_concat, ← Present, ← h.mem_keys]
    simp [Change.Puts, Change.Drops]
  get? other found := by
    rw [get?_set, LastPut, since_concat, ← LastPut, ← h.get?]
    by_cases hother : other = key
    · simp [Change.Puts, hother]
    · simp [Change.Puts, Change.Drops, hother, Ne.symm hother]
  ordered := by
    have hold : data.keys.Pairwise (ArrivedBefore (history ++ [.put key value])) :=
      h.ordered.imp fun hbefore => hbefore.concat id id
    rw [keys_set]
    split_ifs with hkey
    · exact hold
    · have habsent : ¬ Present history key := mt (h.mem_keys key).mpr hkey
      refine List.pairwise_append.mpr ⟨hold, List.pairwise_singleton .., ?_⟩
      intro earlier hearlier later hlater
      have hpresent : Present history earlier := (h.mem_keys earlier).mp hearlier
      rw [List.mem_singleton.mp hlater]
      exact hpresent.arrivedBefore_concat rfl habsent id

/-- A key that is dropped is recorded: its entry goes, and the others stay in order. -/
theorem drop (key : String) : Recorded (history ++ [.drop key]) (data.erase key) where
  nodup := keys_nodup_erase h.nodup
  mem_keys other := by
    rw [keys_erase, h.nodup.mem_erase_iff, Present, since_concat, ← Present, ← h.mem_keys]
    simp [Change.Puts, Change.Drops]
  get? other found := by
    rw [get?_erase h.nodup, LastPut, since_concat, ← LastPut, ← h.get?]
    by_cases hother : other = key <;> simp [Change.Puts, Change.Drops, hother]
  ordered := by
    rw [keys_erase]
    refine (h.ordered.sublist List.erase_sublist).imp_of_mem ?_
    intro earlier later hearlier hlater hbefore
    -- A key that is still there is not the one that goes.
    have hstays : ∀ other ∈ data.keys.erase key, ¬ (Change.drop key).Drops other :=
      fun other hmem => (h.nodup.mem_erase_iff.mp hmem).1
    exact hbefore.concat (hstays _ hearlier) (hstays _ hlater)

omit h in
/-- All keys that are dropped are recorded: no entry stays. -/
theorem dropAll : Recorded (history ++ [.dropAll]) {} where
  nodup := List.nodup_nil
  mem_keys _ := by
    rw [Present, since_concat]
    simp [keys, Change.Puts, Change.Drops]
  get? _ _ := by
    rw [LastPut, since_concat]
    simp [Metadata.get?, Change.Drops]
  ordered := List.Pairwise.nil

/-- **One change** keeps to what the history says. -/
theorem apply (change : Change) : Recorded (history ++ [change]) (change.apply data) := by
  cases change with
  | put key value => exact h.put key value
  | drop key => exact h.drop key
  | dropAll => exact dropAll

/-- **Changes are recorded** one after another. -/
theorem foldl (changes : List Change) :
    Recorded (history ++ changes) (changes.foldl Change.apply data) := by
  induction changes generalizing history data with
  | nil => rwa [List.append_nil]
  | cons change rest ih =>
      rw [List.append_cons]
      exact ih (h.apply change)

/-- There are as many entries as keys that are present. -/
theorem size_eq_ncard : data.size = {key | Present history key}.ncard := by
  have hkeys : {key | Present history key} = (data.keys.toFinset : Set String) := by
    ext key
    simp [h.mem_keys]
  rw [hkeys, Set.ncard_coe_finset, List.toFinset_card_of_nodup h.nodup, keys, List.length_map, size]

/-- Each entry holds the last value that was put under its key. -/
theorem mem_entries (key value : String) :
    (key, value) ∈ data.entries ↔ LastPut history key value :=
  (lookup_eq_some_iff_mem h.nodup).symm.trans (h.get? key value)

/-- The entries stand in the order in which their keys arrived. -/
theorem pairwise_entries :
    data.entries.Pairwise fun earlier later => ArrivedBefore history earlier.1 later.1 :=
  List.pairwise_map.mp h.ordered

/-- **The history leaves nothing open**, not even the order. -/
theorem unique {other : Metadata} (hother : Recorded history other) : data = other := by
  have hperm : data.entries.Perm other.entries := by
    refine (List.perm_ext_iff_of_nodup h.nodup.of_map hother.nodup.of_map).mpr ?_
    rintro ⟨key, value⟩
    rw [h.mem_entries, hother.mem_entries]
  have hentries : data.entries = other.entries :=
    hperm.eq_of_pairwise (fun _ _ _ _ hbefore hafter => absurd hafter hbefore.asymm)
      h.pairwise_entries hother.pairwise_entries
  exact congrArg Metadata.mk hentries

end Recorded

/-! ## Any number of calls -/

/-- **Metadata is a map in the order of insertion**, whatever calls it went through. -/
theorem insertionOrdered_run (calls : List Call) :
    let history := calls.flatMap Call.changes
    let data := calls.foldl Call.run {}
    Recorded history data ∧
      data.size = {key | Present history key}.ncard ∧
      (∀ key value, (key, value) ∈ data.entries ↔ LastPut history key value) ∧
      (data.entries.Pairwise fun earlier later => ArrivedBefore history earlier.1 later.1) ∧
      ∀ key, (data.remove key).1 = data.get? key ∧ ∀ other,
        (data.remove key).2.get? other = if other = key then none else data.get? other := by
  intro history data
  have hdata : data = history.foldl Change.apply {} := by
    rw [List.foldl_flatMap]
    exact congrArg (fun run => calls.foldl run {}) (funext₂ Call.run_eq_foldl)
  have h : Recorded history data := hdata ▸ Recorded.nil.foldl history
  refine ⟨h, h.size_eq_ncard, h.mem_entries, h.pairwise_entries, fun key => ?_⟩
  rw [remove_eq]
  exact ⟨rfl, get?_erase h.nodup⟩

example :
    ([.collect [("wood", "oak"), ("coat", "wax")], .set "wood" "ash", .remove "coat",
      .setStrength "stronger", .set "coat" "oil"].foldl Call.run {}).entries =
      [("wood", "ash"), ("bindMaterialAs", "stronger"), ("coat", "oil")] := by decide

end Metadata

end MaterialBinding
