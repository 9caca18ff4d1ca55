import MaterialBinding.Json.Printer
import MaterialBinding.Json.Reader
import MaterialBinding.Proofs.Json.Literal

/-!
# Printed values are read back

`ReadsBack` says of a reader and a printer that they agree on one value: in any layout, after any
blanks and before anything else, the reader takes exactly that value off the text, as long as the
brackets of the text fit into its limit; if they do not fit, the text counts as malformed.

There is one lemma for each way to make readers, and it takes the readers of the parts with their
printers for granted: texts, truth values, lists (`readsBack_list`), maps (`readsBack_map`) and
records (`readsBack_record`).
-/

namespace MaterialBinding.Json

/-- Nothing but blanks. -/
def BlankText (s : List Char) : Prop := ∀ c ∈ s, isBlank c = true

theorem blankText_nil : BlankText [] := nofun

/-- Blanks are skipped. -/
theorem skipBlank_append {blanks : List Char} (hblanks : BlankText blanks) (s : List Char) :
    skipBlank (blanks ++ s) = skipBlank s :=
  List.dropWhile_append_of_pos hblanks

/-- Nothing is skipped before a character that is not blank. -/
theorem skipBlank_cons {c : Char} (hc : isBlank c = false) (s : List Char) :
    skipBlank (c :: s) = c :: s :=
  List.dropWhile_cons_of_neg (by simp [hc])

/-- What begins a new line is blank. -/
theorem Layout.blankText_newline (layout : Layout) : BlankText layout.newline := by
  cases layout with
  | compact => exact blankText_nil
  | indented level =>
      intro c hmem
      rcases List.mem_cons.mp hmem with rfl | hmem
      · rfl
      · rw [List.eq_of_mem_replicate hmem]
        rfl

/-- A result is the value, if that fits into a limit, and malformed text, if it does not. -/
structure Limited {α : Type} (fits : Prop) (value : α) (result : Except Problem α) : Prop where
  reads : fits → result = .ok value
  refuses : ¬ fits → result = .error .malformed

/-- A value without brackets always fits. -/
theorem Limited.of_ok {α : Type} {value : α} {result : Except Problem α}
    (hread : result = .ok value) : Limited True value result :=
  ⟨fun _ => hread, fun hnot => absurd trivial hnot⟩

/-- A bracket that may not be opened makes the text malformed. -/
theorem Limited.bracket {α : Type} {fits : Prop} {value : α} {result : Except Problem α}
    (h : Limited fits value result) (limit : Nat) :
    Limited (limit ≠ 0 ∧ fits) value (if limit = 0 then .error .malformed else result) := by
  by_cases hlimit : limit = 0
  · rw [if_pos hlimit]
    exact ⟨fun hboth => absurd hlimit hboth.1, fun _ => rfl⟩
  · rw [if_neg hlimit]
    exact ⟨fun hboth => h.reads hboth.2, fun hnot => h.refuses fun hfits => hnot ⟨hlimit, hfits⟩⟩

/-- A reader takes one value back off what a printer writes of it, or finds that it does not fit
into the limit. -/
structure ReadsBack {α : Type} (reader : Reader α) (printer : Printer) (fits : Prop) (value : α) :
    Prop where
  /-- The text begins with something that is no blank and ends no list. -/
  opens : ∀ layout, ∃ c tail, printer layout = c :: tail ∧ isBlank c = false ∧ c ≠ ']'
  /-- The value is read back, whatever stands before it and after it. -/
  limited : ∀ layout rest blanks, BlankText blanks →
    Limited fits (value, rest) (reader (blanks ++ (printer layout ++ rest)))

namespace ReadsBack

variable {α : Type} {reader : Reader α} {printer : Printer} {fits : Prop} {value : α}

/-- The limit may be put in other words. -/
theorem congr {other : Prop} (h : ReadsBack reader printer fits value) (heq : fits ↔ other) :
    ReadsBack reader printer other value := by
  rwa [propext heq] at h

/-- What is made of the value is read back too. -/
theorem refine {β : Type} (h : ReadsBack reader printer fits value) (f : α → β) :
    ReadsBack (reader.refine fun value => .ok (f value)) printer fits (f value) where
  opens := h.opens
  limited := by
    intro layout rest blanks hblanks
    obtain ⟨hreads, hrefuses⟩ := h.limited layout rest blanks hblanks
    constructor
    · intro hfits
      rw [Reader.refine, hreads hfits]
    · intro hfits
      rw [Reader.refine, hrefuses hfits]

end ReadsBack

/-! ## Texts and truth values -/

/-- A literal is its opening quote, the characters as they are written, and its closing quote. -/
theorem encode_append (text rest : List Char) :
    encode text ++ rest = '"' :: (text.flatMap encodeChar ++ '"' :: rest) := by
  simp [encode]

/-- **Strings are read back.** -/
theorem readsBack_string (text : String) :
    ReadsBack readString (.string text) True text where
  opens := fun _ => ⟨'"', _, rfl, rfl, by decide⟩
  limited := by
    intro layout rest blanks hblanks
    apply Limited.of_ok
    rw [readString, skipBlank_append hblanks, Printer.string, encode_append,
      skipBlank_cons (by decide)]
    simp only [decode_encode, String.ofList_toList]

/-- A string is read back also where `null` may stand. -/
theorem readsBack_someString (text : String) :
    ReadsBack (readOption readString) (.string text) True (some text) where
  opens := (readsBack_string text).opens
  limited := by
    intro layout rest blanks hblanks
    apply Limited.of_ok
    have hread := ((readsBack_string text).limited layout rest [] blankText_nil).reads trivial
    have htext : Printer.string text layout ++ rest =
        '"' :: (text.toList.flatMap encodeChar ++ '"' :: rest) := encode_append _ _
    rw [List.nil_append, htext] at hread
    rw [readOption, skipBlank_append hblanks, htext, skipBlank_cons (by decide)]
    split
    next heq =>
      injection heq with hquote
      exact absurd hquote (by decide)
    next => rw [hread]

/-- Truth values are read back. -/
theorem readsBack_bool (value : Bool) : ReadsBack readBool (.bool value) True value where
  opens := by
    intro layout
    cases value with
    | true => exact ⟨'t', _, rfl, rfl, by decide⟩
    | false => exact ⟨'f', _, rfl, rfl, by decide⟩
  limited := by
    intro layout rest blanks hblanks
    apply Limited.of_ok
    rw [readBool, skipBlank_append hblanks]
    cases value <;> rfl

/-! ## What is written between brackets -/

/-- What stands after the first item up to the closing bracket and beyond. -/
def itemsAfter (layout : Layout) (last : Char) (rest : List Char) : List Printer → List Char
  | [] => layout.newline ++ last :: rest
  | item :: items =>
    ',' :: (layout.deeper.newline ++ (item layout.deeper ++ itemsAfter layout last rest items))

/-- What is written between brackets begins with the first item. -/
theorem between_cons (first last : Char) (item : Printer) (items : List Printer) (layout : Layout)
    (rest : List Char) :
    Printer.between first last (item :: items) layout ++ rest =
      first :: (layout.deeper.newline ++
        (item layout.deeper ++ itemsAfter layout last rest items)) := by
  have hlines : ∀ item : Printer,
      [','].intercalate
          ((item :: items).map fun item => layout.deeper.newline ++ item layout.deeper) ++
          (layout.newline ++ last :: rest) =
        layout.deeper.newline ++ (item layout.deeper ++ itemsAfter layout last rest items) := by
    induction items with
    | nil => intro item; simp [List.intercalate, itemsAfter]
    | cons next items ih =>
        intro item
        have hnext := ih next
        simp only [List.intercalate, List.map_cons, List.intersperse, List.flatten_cons,
          List.append_assoc, itemsAfter] at hnext ⊢
        rw [hnext]
        simp
  have hnonempty : (item :: items).isEmpty = false := rfl
  rw [Printer.between, hnonempty, ← hlines item]
  simp

/-- There are at least as many characters to read as items, so the reader has steps enough. -/
theorem length_le_itemsAfter (layout : Layout) (last : Char) (rest : List Char)
    (items : List Printer) : items.length ≤ (itemsAfter layout last rest items).length := by
  induction items with
  | nil => exact Nat.zero_le _
  | cons item items ih =>
      simp only [itemsAfter, List.length_cons, List.length_append]
      omega

theorem between_nil (first last : Char) (layout : Layout) (rest : List Char) :
    Printer.between first last [] layout ++ rest = first :: last :: rest := rfl

/-- Brackets are no blanks and end no list. -/
theorem opens_between {first last : Char} (hblank : isBlank first = false) (hend : first ≠ ']')
    (items : List Printer) (layout : Layout) :
    ∃ c tail,
      Printer.between first last items layout = c :: tail ∧ isBlank c = false ∧ c ≠ ']' := by
  cases items with
  | nil => exact ⟨first, _, rfl, hblank, hend⟩
  | cons item items =>
      have htext := between_cons first last item items layout []
      rw [List.append_nil] at htext
      exact ⟨first, _, htext, hblank, hend⟩

/-! ## Lists -/

section List

variable {α β : Type} {item : Reader α} {print : β → Printer} {fits : β → Prop} {value : β → α}

/-- The items are read back from the first to the closing bracket, if all of them fit.  The steps
allowed are at least as many as the items. -/
theorem readItemsIn_printed (layout : Layout) (rest : List Char) {xs : List β} {x : β}
    {steps : Nat} {blanks : List Char} (hblanks : BlankText blanks) (hsteps : xs.length ≤ steps)
    (hitems : ∀ y ∈ x :: xs, ReadsBack item (print y) (fits y) (value y)) :
    Limited (∀ y ∈ x :: xs, fits y) ((x :: xs).map value, rest)
      (readItemsIn item (steps + 1) (blanks ++
        (print x layout.deeper ++ itemsAfter layout ']' rest (xs.map print)))) := by
  induction xs generalizing x steps blanks with
  | nil =>
      obtain ⟨hreads, hrefuses⟩ := (hitems x (List.mem_cons_self ..)).limited layout.deeper
        (itemsAfter layout ']' rest []) blanks hblanks
      have hclose : skipBlank (itemsAfter layout ']' rest []) = ']' :: rest := by
        rw [itemsAfter, skipBlank_append layout.blankText_newline, skipBlank_cons (by decide)]
      constructor
      · intro hfits
        rw [List.map_nil, readItemsIn, hreads (hfits x (List.mem_cons_self ..))]
        simp only [hclose, List.map_cons, List.map_nil]
      · intro hnot
        have hfits : ¬ fits x := fun h => hnot (by simpa using h)
        rw [List.map_nil, readItemsIn, hrefuses hfits]
  | cons next xs ih =>
      obtain ⟨hx, hothers⟩ := List.forall_mem_cons.mp hitems
      obtain ⟨hreads, hrefuses⟩ := hx.limited layout.deeper
        (itemsAfter layout ']' rest ((next :: xs).map print)) blanks hblanks
      obtain ⟨steps, rfl⟩ := Nat.exists_eq_add_of_le' (Nat.le_trans (Nat.le_add_left 1 _) hsteps)
      have hlater := ih layout.deeper.blankText_newline (Nat.le_of_succ_le_succ hsteps) hothers
      have hcomma : ∀ tail, skipBlank (',' :: tail) = ',' :: tail :=
        fun tail => skipBlank_cons (by decide) tail
      by_cases hfirst : fits x
      · constructor
        · intro hfits
          rw [readItemsIn, hreads hfirst]
          simp only [List.map_cons, itemsAfter, hcomma]
          rw [hlater.reads (List.forall_mem_cons.mp hfits).2, List.map_cons]
        · intro hnot
          have hrest : ¬ ∀ y ∈ next :: xs, fits y :=
            fun hfits => hnot (List.forall_mem_cons.mpr ⟨hfirst, hfits⟩)
          rw [readItemsIn, hreads hfirst]
          simp only [List.map_cons, itemsAfter, hcomma]
          rw [hlater.refuses hrest]
      · constructor
        · exact fun hfits => absurd (hfits x (List.mem_cons_self ..)) hfirst
        · intro _
          rw [readItemsIn, hrefuses hfirst]

/-- An empty list is read from its two brackets. -/
theorem readList_nil (item : Reader α) (limit : Nat) {blanks : List Char}
    (hblanks : BlankText blanks) (rest : List Char) :
    readList limit item (blanks ++ '[' :: ']' :: rest) =
      if limit = 0 then .error .malformed else .ok ([], rest) := by
  rw [readList, skipBlank_append hblanks, skipBlank_cons (by decide)]
  rfl

/-- A list that goes on after its bracket is read item by item. -/
theorem readList_open (item : Reader α) (limit : Nat) {blanks gap : List Char}
    (hblanks : BlankText blanks) (hgap : BlankText gap) {c : Char} (hc : isBlank c = false)
    (hend : c ≠ ']') (s : List Char) :
    readList limit item (blanks ++ '[' :: (gap ++ c :: s)) =
      if limit = 0 then .error .malformed
      else readItemsIn item ((c :: s).length + 1) (c :: s) := by
  rw [readList, skipBlank_append hblanks, skipBlank_cons (by decide)]
  refine ite_congr rfl (fun _ => rfl) fun _ => ?_
  rw [skipBlank_append hgap, skipBlank_cons hc]
  split
  next heq =>
    injection heq with hclose
    exact absurd hclose hend
  next => rfl

/-- **Lists are read back** from one bracket on, and their items within the limit of items. -/
theorem readsBack_list (limit : Nat) {xs : List β}
    (hitems : ∀ x ∈ xs, ReadsBack item (print x) (fits x) (value x)) :
    ReadsBack (readList limit item) (.list (xs.map print)) (limit ≠ 0 ∧ ∀ x ∈ xs, fits x)
      (xs.map value) := by
  refine ⟨opens_between rfl (by decide) _, fun layout rest blanks hblanks => ?_⟩
  cases xs with
  | nil =>
      have hnone : Limited (∀ x ∈ ([] : List β), fits x) (([] : List α), rest) (.ok ([], rest)) :=
        ⟨fun _ => rfl, fun hnot => absurd nofun hnot⟩
      rw [Printer.list, List.map_nil, List.map_nil, between_nil, readList_nil item limit hblanks]
      exact hnone.bracket limit
  | cons x xs =>
      obtain ⟨c, tail, htext, hc, hend⟩ := (hitems x (List.mem_cons_self ..)).opens layout.deeper
      have hsteps : xs.length ≤
          (print x layout.deeper ++ itemsAfter layout ']' rest (xs.map print)).length := by
        have hlength := length_le_itemsAfter layout ']' rest (xs.map print)
        rw [List.length_map] at hlength
        rw [List.length_append]
        omega
      have hprinted := readItemsIn_printed layout rest blankText_nil hsteps hitems
      rw [List.nil_append, htext, List.cons_append] at hprinted
      rw [Printer.list, List.map_cons, List.map_cons, between_cons, htext, List.cons_append,
        readList_open item limit hblanks layout.deeper.blankText_newline hc hend]
      exact hprinted.bracket limit

end List

/-- **Lists of strings are read back** if one bracket fits into the limit. -/
theorem readsBack_strings (limit : Nat) (texts : List String) :
    ReadsBack (readList limit readString) (.list (texts.map .string)) (limit ≠ 0) texts := by
  have hlist := readsBack_list limit fun text (_ : text ∈ texts) => readsBack_string text
  rw [List.map_id'] at hlist
  exact hlist.congr ⟨fun h => h.1, fun h => ⟨h, fun _ _ => trivial⟩⟩

/-! ## Members of objects -/

/-- What stands after the name of a member. -/
def afterName (value : Printer) : Printer := fun layout => layout.colon ++ value layout

/-- A member is its name, written as a literal, and what follows the name. -/
theorem member_append (name : String) (value : Printer) (layout : Layout) (rest : List Char) :
    Printer.member name value layout ++ rest =
      '"' :: (name.toList.flatMap encodeChar ++ '"' :: (afterName value layout ++ rest)) := by
  rw [Printer.member, List.append_assoc, List.append_assoc, encode_append, afterName,
    List.append_assoc]

/-- The colon behind a name is read, and what is left of it is blank. -/
theorem readColon_colon (layout : Layout) {blanks : List Char} (hblanks : BlankText blanks)
    (s : List Char) :
    ∃ gap, BlankText gap ∧ readColon (blanks ++ (layout.colon ++ s)) = .ok (gap ++ s) := by
  have hcolon : ∀ tail, readColon (blanks ++ ':' :: tail) = .ok tail := by
    intro tail
    rw [readColon, skipBlank_append hblanks, skipBlank_cons (by decide)]
    rfl
  cases layout with
  | compact => exact ⟨[], blankText_nil, hcolon s⟩
  | indented level => exact ⟨[' '], by simp [BlankText, isBlank], hcolon (' ' :: s)⟩

/-- The value of a member is read back behind its colon. -/
theorem ReadsBack.afterName {α : Type} {reader : Reader α} {printer : Printer} {fits : Prop}
    {value : α} (h : ReadsBack reader printer fits value) :
    ReadsBack (fun s => (readColon s).bind reader) (Json.afterName printer) fits value where
  opens := by
    intro layout
    cases layout with
    | compact => exact ⟨':', _, rfl, rfl, by decide⟩
    | indented level => exact ⟨':', _, rfl, rfl, by decide⟩
  limited := by
    intro layout rest blanks hblanks
    obtain ⟨gap, hgap, hcolon⟩ := readColon_colon layout hblanks (printer layout ++ rest)
    rw [Json.afterName, List.append_assoc, hcolon]
    exact h.limited layout rest gap hgap

section Members

variable {σ ε : Type} {member : String → σ → Reader σ} {name : ε → String} {print : ε → Printer}
  {fits : ε → Prop} {state : List ε → σ} {all : List ε}

section Step

variable {start next : σ} {label : String} {content : Printer} {layout : Layout} {steps : Nat}
  {blanks s rest tail : List Char}

/-- A problem in a member is one of the object. -/
theorem readMembersIn_error (hblanks : BlankText blanks) {problem : Problem}
    (hread : member label start (afterName content layout ++ s) = .error problem) :
    readMembersIn member (steps + 1) start (blanks ++ (Printer.member label content layout ++ s)) =
      .error problem := by
  rw [readMembersIn, skipBlank_append hblanks, member_append, skipBlank_cons (by decide)]
  simp only [decode_encode, String.ofList_toList, hread]

/-- A bracket after a member ends the object. -/
theorem readMembersIn_close (hblanks : BlankText blanks)
    (hread : member label start (afterName content layout ++ s) = .ok (next, rest))
    (hclose : skipBlank rest = '\x7d' :: tail) :
    readMembersIn member (steps + 1) start (blanks ++ (Printer.member label content layout ++ s)) =
      .ok (next, tail) := by
  rw [readMembersIn, skipBlank_append hblanks, member_append, skipBlank_cons (by decide)]
  simp only [decode_encode, String.ofList_toList, hread, hclose]

/-- After a comma the next member is read. -/
theorem readMembersIn_comma (hblanks : BlankText blanks)
    (hread : member label start (afterName content layout ++ s) = .ok (next, rest))
    (hcomma : skipBlank rest = ',' :: tail) :
    readMembersIn member (steps + 1) start (blanks ++ (Printer.member label content layout ++ s)) =
      readMembersIn member steps next tail := by
  rw [readMembersIn, skipBlank_append hblanks, member_append, skipBlank_cons (by decide)]
  simp only [decode_encode, String.ofList_toList, hread, hcomma]

end Step

/-- The members are read back from the first to the closing bracket, if all of them fit.  The
state is what the members before have made of it. -/
theorem readMembersIn_printed (layout : Layout) (rest : List Char)
    (hmember : ∀ done e later, all = done ++ e :: later →
      ReadsBack (member (name e) (state done)) (afterName (print e)) (fits e) (state (done ++ [e])))
    {done later : List ε} {e : ε} {steps : Nat} {blanks : List Char}
    (hall : all = done ++ e :: later) (hblanks : BlankText blanks)
    (hsteps : later.length ≤ steps) :
    Limited (∀ x ∈ e :: later, fits x) (state all, rest)
      (readMembersIn member (steps + 1) (state done) (blanks ++
        (Printer.member (name e) (print e) layout.deeper ++
          itemsAfter layout '\x7d' rest
            (later.map fun x => Printer.member (name x) (print x))))) := by
  induction later generalizing done e steps blanks with
  | nil =>
      obtain ⟨hreads, hrefuses⟩ := (hmember done e [] hall).limited layout.deeper
        (itemsAfter layout '\x7d' rest []) [] blankText_nil
      constructor
      · intro hfits
        have hclose : skipBlank (itemsAfter layout '\x7d' rest []) = '\x7d' :: rest := by
          rw [itemsAfter, skipBlank_append layout.blankText_newline, skipBlank_cons (by decide)]
        rw [hall]
        exact readMembersIn_close hblanks (hreads (hfits e (List.mem_cons_self ..))) hclose
      · intro hnot
        have hfits : ¬ fits e := fun h => hnot (by simpa using h)
        exact readMembersIn_error hblanks (hrefuses hfits)
  | cons next later ih =>
      obtain ⟨hreads, hrefuses⟩ := (hmember done e (next :: later) hall).limited layout.deeper
        (itemsAfter layout '\x7d' rest
          ((next :: later).map fun x => Printer.member (name x) (print x))) [] blankText_nil
      obtain ⟨steps, rfl⟩ := Nat.exists_eq_add_of_le' (Nat.le_trans (Nat.le_add_left 1 _) hsteps)
      have hnext : all = (done ++ [e]) ++ next :: later := by rw [hall, List.append_assoc]; rfl
      have hlater := ih hnext layout.deeper.blankText_newline (Nat.le_of_succ_le_succ hsteps)
      have hcomma : ∀ tail, skipBlank (',' :: tail) = ',' :: tail :=
        fun tail => skipBlank_cons (by decide) tail
      by_cases hfirst : fits e
      · constructor
        · intro hfits
          exact (readMembersIn_comma hblanks (hreads hfirst) (hcomma _)).trans
            (hlater.reads (List.forall_mem_cons.mp hfits).2)
        · intro hnot
          have hothers : ¬ ∀ x ∈ next :: later, fits x :=
            fun hfits => hnot (List.forall_mem_cons.mpr ⟨hfirst, hfits⟩)
          exact (readMembersIn_comma hblanks (hreads hfirst) (hcomma _)).trans
            (hlater.refuses hothers)
      · constructor
        · exact fun hfits => absurd (hfits e (List.mem_cons_self ..)) hfirst
        · exact fun _ => readMembersIn_error hblanks (hrefuses hfirst)

/-- Members that go on after the bracket of their object are read one by one. -/
theorem readMembers_open (start : σ) (label : String) (content : Printer) (layout : Layout)
    {gap : List Char} (hgap : BlankText gap) (s : List Char) :
    readMembers member start (gap ++ (Printer.member label content layout ++ s)) =
      readMembersIn member ((Printer.member label content layout ++ s).length + 1) start
        (Printer.member label content layout ++ s) := by
  rw [readMembers, skipBlank_append hgap, member_append, skipBlank_cons (by decide)]
  split
  next heq =>
    injection heq with hquote
    exact absurd hquote (by decide)
  next => rfl

/-- What is written of an object is a bracket, and after it the members are read back. -/
theorem object_append (layout : Layout) (rest : List Char)
    (hmember : ∀ done e later, all = done ++ e :: later →
      ReadsBack (member (name e) (state done)) (afterName (print e)) (fits e)
        (state (done ++ [e]))) :
    ∃ inner,
      Printer.object (all.map fun x => (name x, print x)) layout ++ rest = '\x7b' :: inner ∧
      Limited (∀ x ∈ all, fits x) (state all, rest) (readMembers member (state []) inner) := by
  have hmap : (all.map fun x => (name x, print x)).map (fun pair => Printer.member pair.1 pair.2) =
      all.map fun x => Printer.member (name x) (print x) := by
    rw [List.map_map]
    rfl
  rw [Printer.object, hmap]
  cases all with
  | nil =>
      refine ⟨'\x7d' :: rest, rfl, fun _ => ?_, fun hnot => absurd nofun hnot⟩
      rw [readMembers, skipBlank_cons (by decide)]
      rfl
  | cons e later =>
      have hsteps : later.length ≤ (Printer.member (name e) (print e) layout.deeper ++ itemsAfter
          layout '\x7d' rest (later.map fun x => Printer.member (name x) (print x))).length := by
        have hlength := length_le_itemsAfter layout '\x7d' rest
          (later.map fun x => Printer.member (name x) (print x))
        rw [List.length_map] at hlength
        rw [List.length_append]
        omega
      have hprinted := readMembersIn_printed layout rest hmember (List.nil_append _).symm
        blankText_nil hsteps
      rw [List.map_cons]
      refine ⟨_, between_cons .., ?_⟩
      rw [readMembers_open _ _ _ _ layout.deeper.blankText_newline]
      exact hprinted

end Members

/-! ## Maps and records -/

/-- Reads what follows the name of a member of a map. -/
def pairMember {α : Type} (item : Reader α) (name : String) (pairs : List (String × α)) :
    Reader (List (String × α)) :=
  Reader.refine (fun s => (readColon s).bind item) fun value => .ok (pairs ++ [(name, value)])

/-- A map is read member by member behind its bracket. -/
theorem readMap_open {α : Type} (item : Reader α) (limit : Nat) {blanks : List Char}
    (hblanks : BlankText blanks) (inner : List Char) :
    readMap limit item (blanks ++ '\x7b' :: inner) =
      if limit = 0 then .error .malformed else readMembers (pairMember item) [] inner := by
  rw [readMap, skipBlank_append hblanks, skipBlank_cons (by decide)]
  refine ite_congr rfl (fun _ => rfl) fun _ =>
    congrArg (fun member => readMembers member [] inner) ?_
  funext name pairs s
  rw [pairMember, Reader.refine]
  cases (readColon s).bind item <;> rfl

/-- Objects begin with a bracket. -/
theorem opens_object (members : List (String × Printer)) (layout : Layout) :
    ∃ c tail, Printer.object members layout = c :: tail ∧ isBlank c = false ∧ c ≠ ']' :=
  opens_between rfl (by decide) _ layout

/-- **Maps are read back** as the pairs that were printed. -/
theorem readsBack_map {α β : Type} {item : Reader α} {print : β → Printer} {fits : β → Prop}
    {value : β → α} (limit : Nat) {pairs : List (String × β)}
    (hitems : ∀ pair ∈ pairs, ReadsBack item (print pair.2) (fits pair.2) (value pair.2)) :
    ReadsBack (readMap limit item) (.object (pairs.map fun pair => (pair.1, print pair.2)))
      (limit ≠ 0 ∧ ∀ pair ∈ pairs, fits pair.2) (pairs.map fun pair => (pair.1, value pair.2)) := by
  have hmember : ∀ done pair later, pairs = done ++ pair :: later →
      ReadsBack (pairMember item pair.1 (done.map fun pair => (pair.1, value pair.2)))
        (afterName (print pair.2)) (fits pair.2)
        ((done ++ [pair]).map fun pair => (pair.1, value pair.2)) := by
    intro done pair later hpairs
    have hpair := hitems pair (hpairs ▸ List.mem_append_right _ (List.mem_cons_self ..))
    rw [List.map_append]
    exact hpair.afterName.refine _
  refine ⟨opens_object _, fun layout rest blanks hblanks => ?_⟩
  obtain ⟨inner, htext, hmembers⟩ := object_append layout rest hmember
  rw [htext, readMap_open item limit hblanks]
  exact hmembers.bracket limit

/-- **Maps of strings are read back**, with their keys in the order in which they are written. -/
theorem readsBack_stringMap (limit : Nat) (pairs : List (String × String)) :
    ReadsBack (readMap limit readString)
      (.object (pairs.map fun pair => (pair.1, .string pair.2))) (limit ≠ 0) pairs := by
  have hmap := @readsBack_map _ _ readString .string (fun _ => True) id limit pairs
    fun pair _ => readsBack_string pair.2
  have hsame : (pairs.map fun pair => (pair.1, id pair.2)) = pairs := List.map_id' pairs
  rw [hsame] at hmap
  exact hmap.congr ⟨fun h => h.1, fun h => ⟨h, fun _ _ => trivial⟩⟩

/-- A member of an object that stands for a field of a record: what writes its value, whether that
fits into the limit, and what it does to the record. -/
structure PrintedField (ρ : Type) where
  name : String
  printer : Printer
  fits : Prop
  put : ρ → ρ

section Record

variable {ρ : Type} {fields : List (RecordField ρ)} {blank : ρ}

/-- The field of that name reads the value back and puts it into the record. -/
def PrintedField.IsOf (member : PrintedField ρ) (fields : List (RecordField ρ)) : Prop :=
  ∃ field, fields.find? (·.name = member.name) = some field ∧
    ∀ record, ReadsBack (field.read record) member.printer member.fits (member.put record)

/-- A member is read back by the field of its name, if that name was not seen before. -/
theorem readMember_readsBack {member : PrintedField ρ} (hfield : member.IsOf fields)
    {seen : List String} (hseen : member.name ∉ seen) (record : ρ) :
    ReadsBack (readMember fields member.name (seen, record)) (afterName member.printer)
      member.fits (member.name :: seen, member.put record) := by
  obtain ⟨field, hfind, hread⟩ := hfield
  have hreader : readMember fields member.name (seen, record) =
      Reader.refine (fun s => (readColon s).bind (field.read record))
        fun record => .ok (member.name :: seen, record) := by
    funext s
    rw [readMember, hfind, Reader.refine]
    simp only [if_neg hseen]
    cases (readColon s).bind (field.read record) <;> rfl
  rw [hreader]
  exact (hread record).afterName.refine _

/-- What has been read of a record after some of its members. -/
def recordState (blank : ρ) (done : List (PrintedField ρ)) : List String × ρ :=
  ((done.map (·.name)).reverse, done.foldl (fun record member => member.put record) blank)

/-- A record is read member by member behind its bracket; then the required fields are asked for. -/
theorem readRecord_open (limit : Nat) {blanks : List Char} (hblanks : BlankText blanks)
    (inner : List Char) :
    readRecord limit fields blank (blanks ++ '\x7b' :: inner) =
      if limit = 0 then .error .malformed
      else
        match readMembers (readMember fields) (recordState blank []) inner with
        | .error problem => .error problem
        | .ok ((seen, record), rest) =>
          match fields.find? fun field => field.required && field.name ∉ seen with
          | some field => .error (.missingField field.name)
          | none => .ok (record, rest) := by
  rw [readRecord, skipBlank_append hblanks, skipBlank_cons (by decide)]
  rfl

/-- **Records are read back** from their printed members, if these are fields with different names
and no mandatory one is missing. -/
theorem readsBack_record (limit : Nat) (blank : ρ) {members : List (PrintedField ρ)}
    (hfields : ∀ member ∈ members, member.IsOf fields)
    (hnodup : (members.map (·.name)).Nodup)
    (hrequired : ∀ field ∈ fields, field.required = true → field.name ∈ members.map (·.name)) :
    ReadsBack (readRecord limit fields blank)
      (.object (members.map fun member => (member.name, member.printer)))
      (limit ≠ 0 ∧ ∀ member ∈ members, member.fits)
      (members.foldl (fun record member => member.put record) blank) := by
  have hmember : ∀ done member later, members = done ++ member :: later →
      ReadsBack (readMember fields member.name (recordState blank done))
        (afterName member.printer) member.fits (recordState blank (done ++ [member])) := by
    intro done member later hmembers
    have hfield := hfields member (hmembers ▸ List.mem_append_right _ (List.mem_cons_self ..))
    have hseen : member.name ∉ (done.map (·.name)).reverse := by
      rw [hmembers, List.map_append, List.map_cons, List.nodup_append] at hnodup
      rw [List.mem_reverse]
      exact fun hmem => hnodup.2.2 _ hmem _ (List.mem_cons_self ..) rfl
    have hstate : recordState blank (done ++ [member]) =
        (member.name :: (done.map (·.name)).reverse,
          member.put (done.foldl (fun record member => member.put record) blank)) := by
      simp [recordState]
    rw [hstate]
    exact readMember_readsBack hfield hseen _
  have hcomplete : (fields.find? fun field =>
      field.required && field.name ∉ (members.map (·.name)).reverse) = none := by
    rw [List.find?_eq_none]
    intro field hmem hmissing
    simp only [Bool.and_eq_true, decide_eq_true_eq, List.mem_reverse] at hmissing
    exact hmissing.2 (hrequired field hmem hmissing.1)
  refine ⟨opens_object _, fun layout rest blanks hblanks => ?_⟩
  obtain ⟨inner, htext, hreads, hrefuses⟩ := object_append layout rest hmember
  rw [htext, readRecord_open limit hblanks]
  refine Limited.bracket ⟨fun hfits => ?_, fun hnot => ?_⟩ limit
  · rw [hreads hfits, recordState]
    dsimp only
    rw [hcomplete]
  · rw [hrefuses hnot]

end Record

end MaterialBinding.Json
