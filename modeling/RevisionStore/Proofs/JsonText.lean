/-
**The JSON text of a tree reads back as that tree.**

Texts are escaped so that they end where they should, numbers end at the mark behind them, and the
white space between the parts is passed over, however much of it there is.  So what a tree is
written as is read as that tree, in the layout that puts each entry on a line of its own as in any
other.

Main definitions:

* `Json.Layout`, `Json.spelling` — white space between the parts, and the text of a tree with it;
* `Json.Spellable` — the trees that JSON has a form for, nested at most so deep.

Main results:

* `Json.toList_pretty` — the text with one entry on a line is one of these;
* `Json.valueWithin_spelling` — a tree is read off the front of any text that begins with its own;
* `Json.read_spelling`, `Json.read_pretty` — **the text of a tree reads back as the tree**.
-/

import RevisionStore.Data.Json
import RevisionStore.Data.Json.Reading
import RevisionStore.Proofs.Decimal

set_option autoImplicit false

namespace RevisionStore.Json

/-! ### Layouts -/

/-- White space between the parts of a text: before the entries of a list or a record at some level
and before the bracket that closes it, and behind the colon after a name. -/
structure Layout where
  gap : Nat → List Char
  afterColon : List Char
  gap_blank : ∀ level, ∀ c ∈ gap level, isSpace c = true
  afterColon_blank : ∀ c ∈ afterColon, isSpace c = true

/-- Each entry on a line of its own, two spaces further in at each level. -/
def Layout.lines : Layout where
  gap level := '\n' :: List.replicate (2 * level) ' '
  afterColon := [' ']
  gap_blank level c mem := by
    rcases List.mem_cons.1 mem with rfl | mem
    · rfl
    · rw [List.eq_of_mem_replicate mem]
      rfl
  afterColon_blank c mem := by
    rw [List.mem_singleton.1 mem]
    rfl

/-- No white space at all. -/
def Layout.dense : Layout where
  gap _ := []
  afterColon := []
  gap_blank _ _ mem := by cases mem
  afterColon_blank _ mem := by cases mem

/-- Entries between brackets, or the brackets alone. -/
def enclose (layout : Layout) (level : Nat) (opening closing : Char) (entries : List (List Char)) :
    List Char :=
  if entries.isEmpty then [opening, closing]
  else
    opening :: (layout.gap (level + 1) ++ (',' :: layout.gap (level + 1)).intercalate entries
      ++ layout.gap level ++ [closing])

theorem exists_enclose_eq_cons (layout : Layout) (level : Nat) (opening closing : Char)
    (entries : List (List Char)) :
    ∃ rest, enclose layout level opening closing entries = opening :: rest := by
  unfold enclose
  split_ifs <;> exact ⟨_, rfl⟩

mutual

/-- The text of a tree at some level. -/
def spelling (layout : Layout) (level : Nat) : Data → List Char
  | .null => "null".toList
  | .boolean value => (if value then "true" else "false").toList
  | .integer value => (toString value).toList
  | .decimal literal => literal.toList
  | .moment literal => (quote literal).toList
  | .text value => (quote value).toList
  | .list items => enclose layout level '[' ']' (spellings layout (level + 1) items)
  | .record fields => enclose layout level '\x7b' '\x7d' (fieldSpellings layout (level + 1) fields)

/-- The texts of the items of a list. -/
def spellings (layout : Layout) (level : Nat) : List Data → List (List Char)
  | [] => []
  | item :: items => spelling layout level item :: spellings layout level items

/-- The texts of the fields of a record. -/
def fieldSpellings (layout : Layout) (level : Nat) : List (String × Data) → List (List Char)
  | [] => []
  | (name, value) :: fields =>
    ((quote name).toList ++ ':' :: (layout.afterColon ++ spelling layout level value)) ::
      fieldSpellings layout level fields

end

theorem spellings_eq_map (layout : Layout) (level : Nat) (items : List Data) :
    spellings layout level items = items.map (spelling layout level) := by
  induction items with
  | nil => rfl
  | cons item items ih => rw [spellings, ih, List.map_cons]

/-- The text of a field. -/
def fieldSpelling (layout : Layout) (level : Nat) (field : String × Data) : List Char :=
  (quote field.1).toList ++ ':' :: (layout.afterColon ++ spelling layout level field.2)

theorem fieldSpellings_eq_map (layout : Layout) (level : Nat) (fields : List (String × Data)) :
    fieldSpellings layout level fields = fields.map (fieldSpelling layout level) := by
  induction fields with
  | nil => rfl
  | cons field fields ih => rw [fieldSpellings, ih, List.map_cons, fieldSpelling]

theorem toList_spread (level : Nat) (opening closing : Char) (entries : List String) :
    (spread level opening.toString closing.toString entries).toList =
      enclose .lines level opening closing (entries.map String.toList) := by
  cases entries with
  | nil => simp [spread, enclose, Char.toString]
  | cons entry entries =>
      simp [spread, enclose, newLine, Layout.lines, String.toList_intercalate, Char.toString]

mutual

/-- **The text with each entry on a line of its own is the one in that layout.** -/
theorem toList_pretty (level : Nat) : ∀ data : Data,
    (pretty level data).toList = spelling .lines level data
  | .null | .boolean _ | .integer _ | .decimal _ | .moment _ | .text _ => by
      rw [pretty, spelling]
  | .list items => by
      rw [pretty, spelling, ← map_toList_prettyItems]
      exact toList_spread level '[' ']' _
  | .record fields => by
      rw [pretty, spelling, ← map_toList_prettyFields]
      exact toList_spread level '\x7b' '\x7d' _

theorem map_toList_prettyItems (level : Nat) : ∀ items : List Data,
    (prettyItems level items).map String.toList = spellings .lines level items
  | [] => rfl
  | item :: items => by
      rw [prettyItems, spellings, List.map_cons, toList_pretty level item,
        map_toList_prettyItems level items]

theorem map_toList_prettyFields (level : Nat) : ∀ fields : List (String × Data),
    (prettyFields level fields).map String.toList = fieldSpellings .lines level fields
  | [] => rfl
  | (name, value) :: fields => by
      rw [prettyFields, fieldSpellings, List.map_cons, ← toList_pretty level value,
        map_toList_prettyFields level fields]
      simp [Layout.lines]

end

/-! ### Texts -/

/-- The number of a control character is read back from its digits. -/
theorem unit?_byteDigits : ∀ n < 32, n.isValidChar ∧
    ∃ a b, Hex.byteDigits (UInt8.ofNat n) = [a, b] ∧ unit? ['0', '0', a, b] = some n := by
  have units : ∀ n < 32, n.isValidChar ∧ unit? ['0', '0', Hex.digit ((UInt8.ofNat n).toNat / 16),
      Hex.digit ((UInt8.ofNat n).toNat % 16)] = some n := by decide
  exact fun n small => ⟨(units n small).1, _, _, rfl, (units n small).2⟩

/-- A character is read back from the way it is written in a text. -/
theorem textRest_escape (c : Char) (rest : List Char) :
    textRest ((escape c).toList ++ rest) = prepend c (textRest rest) := by
  unfold escape
  split_ifs with quote slash newline carriage tab backspace feed control
  · subst quote; rfl
  · subst slash; rfl
  · subst newline; rfl
  · subst carriage; rfl
  · subst tab; rfl
  · subst backspace; rfl
  · subst feed; rfl
  · have small : c.toNat < 32 := control
    obtain ⟨valid, a, b, digits, unit⟩ := unit?_byteDigits c.toNat small
    have spelled : ("\\u00" ++ String.ofList (Hex.byteDigits (UInt8.ofNat c.toNat))).toList ++
        rest = '\\' :: 'u' :: '0' :: '0' :: a :: b :: rest := by simp [digits]
    rw [spelled, textRest, unit]
    simp only [valid, if_true, Char.ofNat_toNat]
  · have spelled : c.toString.toList ++ rest = c :: rest := by simp [Char.toString]
    have plain : (c < ' ' || c = '\\') = false := by simp [control, slash]
    rw [spelled, textRest]
    · rw [plain]
      rfl
    · exact quote
    · rintro _ _ _ _ _ rfl
      exact absurd rfl slash
    · exact fun _ _ same _ => slash same

/-- **A text is read back up to its closing quotation mark.** -/
theorem textRest_escapes (chars rest : List Char) :
    textRest (chars.flatMap (fun c => (escape c).toList) ++ '"' :: rest) = some (chars, rest) := by
  induction chars with
  | nil => rfl
  | cons c chars ih =>
      rw [List.flatMap_cons, List.append_assoc, textRest_escape, ih]
      rfl

theorem toList_quote (text : String) : (quote text).toList =
    '"' :: (text.toList.flatMap (fun c => (escape c).toList) ++ ['"']) := by
  simp [quote, List.flatMap_map]

/-! ### Numbers -/

/-- No number goes on with what comes next. -/
def Ends (rest : List Char) : Prop := ∀ c ∈ rest.head?, isNumeric c = false

theorem natural?_toDigits (n : Nat) : natural? (Nat.toDigits 10 n) = some n := by
  have digits : (Nat.toDigits 10 n).all Char.isDigit = true := by
    rw [List.all_eq_true]
    exact fun c => Nat.isDigit_of_mem_toDigits (by decide) (by decide)
  have plain : ¬ ((Nat.toDigits 10 n).head? = some '0' ∧ Nat.toDigits 10 n ≠ ['0']) :=
    fun spare => spare.2 (Decimal.plain_toDigits n spare.1)
  simp [natural?, digits, plain, Nat.toDigits_ne_nil, Nat.ofDigitChars_ten_toDigits]

theorem integer?_toString (n : Int) : integer? (toString n).toList = some n := by
  rw [Decimal.toList_toString_int]
  split_ifs with nonneg
  · rw [integer?, natural?_toDigits, Option.map_some]
    · exact congrArg some (Int.toNat_of_nonneg nonneg)
    · exact fun _ => Decimal.toDigits_ne_minus
  · obtain ⟨k, same⟩ : ∃ k : Nat, n = -(k + 1 : Nat) := ⟨(-n).toNat - 1, by omega⟩
    have magnitude : (-n).toNat = k + 1 := by omega
    rw [magnitude, integer?, natural?_toDigits, same]
    rfl

theorem isNumeric_of_mem_toString (n : Int) : ∀ c ∈ (toString n).toList, isNumeric c = true := by
  have digits : ∀ k, ∀ c ∈ Nat.toDigits 10 k, isNumeric c = true := by
    intro k c mem
    simp [isNumeric, Nat.isDigit_of_mem_toDigits (by decide) (by decide) mem]
  rw [Decimal.toList_toString_int]
  split_ifs
  · exact digits _
  · intro c mem
    rcases List.mem_cons.1 mem with rfl | mem
    · rfl
    · exact digits _ c mem

/-- **An integer is read back if no number goes on behind it.** -/
theorem number_toString (n : Int) {rest : List Char} (ends : Ends rest) :
    number ((toString n).toList ++ rest) = some (.integer n, rest) := by
  have numeric := isNumeric_of_mem_toString n
  have none_left : rest.takeWhile isNumeric = [] ∧ rest.dropWhile isNumeric = rest := by
    cases rest with
    | nil => exact ⟨rfl, rfl⟩
    | cons c rest => simp [ends c rfl]
  rw [number, List.takeWhile_append_of_pos numeric, List.dropWhile_append_of_pos numeric,
    none_left.1, none_left.2, List.append_nil, integer?_toString]

/-! ### Lists and records -/

section

variable {α : Type} {item : Reader α} {spell : α → List Char} {closing : Char}

theorem skipSpace_append {blank rest : List Char} (space : ∀ c ∈ blank, isSpace c = true) :
    skipSpace (blank ++ rest) = skipSpace rest := List.dropWhile_append_of_pos space

/-- The text begins with a character that is neither white space nor the closing bracket. -/
def Begins (closing : Char) (text : List Char) : Prop :=
  ∃ c rest, text = c :: rest ∧ isSpace c = false ∧ c ≠ closing

/-- What is read as an item off the front of any text that begins with the item's own. -/
def ReadsBack (item : Reader α) (spell : α → List Char) (x : α) : Prop :=
  ∀ rest, Ends rest → item (spell x ++ rest) = some (x, rest)

/-- A bracket that closes a list or a record. -/
structure Closes (closing : Char) : Prop where
  not_space : isSpace closing = false
  not_numeric : isNumeric closing = false
  ne_comma : closing ≠ ','

/-- White space is no part of a number. -/
theorem isNumeric_of_isSpace {c : Char} (space : isSpace c = true) : isNumeric c = false := by
  simp only [isSpace, Bool.or_eq_true, decide_eq_true_eq] at space
  rcases space with ((rfl | rfl) | rfl) | rfl <;> rfl

/-- No number goes on with white space and a closing bracket. -/
theorem ends_closing {blank rest : List Char} (space : ∀ c ∈ blank, isSpace c = true)
    (closes : Closes closing) : Ends (blank ++ closing :: rest) := by
  rintro c head
  cases blank with
  | nil =>
      cases head
      exact closes.not_numeric
  | cons b blank =>
      cases head
      exact isNumeric_of_isSpace (space _ List.mem_cons_self)

theorem skipSpace_of_not_isSpace {c : Char} {rest : List Char} (visible : isSpace c = false) :
    skipSpace (c :: rest) = c :: rest := by
  rw [skipSpace, List.dropWhile_cons_of_neg (by rw [visible]; exact Bool.false_ne_true)]

theorem Begins.skipSpace_eq {text : List Char} (begins : Begins closing text) :
    skipSpace text = text := by
  obtain ⟨c, rest, rfl, visible, -⟩ := begins
  exact skipSpace_of_not_isSpace visible

theorem Begins.ne_nil {text : List Char} (begins : Begins closing text) : text ≠ [] := by
  obtain ⟨c, rest, rfl, -⟩ := begins
  exact List.cons_ne_nil _ _

theorem Begins.append {text : List Char} (begins : Begins closing text) (rest : List Char) :
    Begins closing (text ++ rest) := by
  obtain ⟨c, tail, rfl, visible, other⟩ := begins
  exact ⟨c, tail ++ rest, rfl, visible, other⟩

/-- Entries with something between them begin as the first one does. -/
theorem Begins.intercalate {first : List Char} (begins : Begins closing first)
    (between : List Char) (others : List (List Char)) :
    Begins closing (between.intercalate (first :: others)) := by
  cases others with
  | nil => rwa [List.intercalate_singleton]
  | cons second others =>
      rw [List.intercalate_cons_cons, List.append_assoc]
      exact begins.append _

/-- The last item has the closing bracket behind it. -/
theorem items_of_closing {bound : Nat} {x : α} {text blank rest : List Char}
    (closes : Closes closing) (space : ∀ c ∈ blank, isSpace c = true)
    (first : item text = some (x, blank ++ closing :: rest)) :
    items item closing (bound + 1) text = some ([x], rest) := by
  have stands : skipSpace (blank ++ closing :: rest) = closing :: rest := by
    rw [skipSpace_append space, skipSpace_of_not_isSpace closes.not_space]
  rw [items, first]
  simp only [Option.bind_eq_bind, Option.bind_some, stands, if_true]

/-- Another item has a comma behind it, and then the others. -/
theorem items_of_comma {bound : Nat} {x : α} {xs : List α} {text blank next rest : List Char}
    (closes : Closes closing) (space : ∀ c ∈ blank, isSpace c = true) (begins : Begins closing next)
    (first : item text = some (x, ',' :: (blank ++ next)))
    (others : items item closing bound next = some (xs, rest)) :
    items item closing (bound + 1) text = some (x :: xs, rest) := by
  have stands : skipSpace (',' :: (blank ++ next)) = ',' :: (blank ++ next) :=
    skipSpace_of_not_isSpace rfl
  have follows : skipSpace (blank ++ next) = next := by
    rw [skipSpace_append space, begins.skipSpace_eq]
  rw [items, first]
  simp only [Option.bind_eq_bind, Option.bind_some, stands, closes.ne_comma.symm, if_false, if_true,
    follows, others]
  rfl

/-- **Items between commas are read back up to the closing bracket.** -/
theorem items_spelled {gap last rest : List Char} (closes : Closes closing)
    (space : ∀ c ∈ gap, isSpace c = true) (space' : ∀ c ∈ last, isSpace c = true) {xs : List α}
    {bound : Nat} (some_item : xs ≠ []) (bounded : xs.length ≤ bound)
    (begins : ∀ x ∈ xs, Begins closing (spell x)) (reads : ∀ x ∈ xs, ReadsBack item spell x) :
    items item closing bound
      ((',' :: gap).intercalate (xs.map spell) ++ (last ++ closing :: rest)) = some (xs, rest) := by
  -- The bound goes down with each item, and what is behind a comma is the text of the others.
  induction xs generalizing bound with
  | nil => exact absurd rfl some_item
  | cons x xs ih =>
      obtain ⟨bound, rfl⟩ : ∃ k, bound = k + 1 := ⟨bound - 1, by simp at bounded; omega⟩
      have first := reads x List.mem_cons_self
      cases xs with
      | nil =>
          rw [List.map_singleton, List.intercalate_singleton]
          exact items_of_closing closes space' (first _ (ends_closing space' closes))
      | cons y ys =>
          have others := @ih bound (List.cons_ne_nil _ _) (Nat.le_of_succ_le_succ bounded)
            (fun z mem => begins z (.tail _ mem)) (fun z mem => reads z (.tail _ mem))
          have second : Begins closing ((',' :: gap).intercalate ((y :: ys).map spell)) :=
            (begins y (.tail _ List.mem_cons_self)).intercalate _ _
          have comma : ∀ next, Ends (',' :: next) := by
            rintro next c ⟨⟩
            rfl
          rw [List.map_cons, List.map_cons, List.intercalate_cons_cons, List.append_assoc,
            List.append_assoc, List.cons_append]
          exact items_of_comma closes space (second.append _) (first _ (comma _)) others

/-- Entries that are not empty are no more than the characters they are spread over. -/
theorem length_le_intercalate (between : List Char) {entries : List (List Char)}
    (visible : ∀ entry ∈ entries, entry ≠ []) :
    entries.length ≤ (between.intercalate entries).length := by
  induction entries with
  | nil => exact Nat.zero_le _
  | cons entry entries ih =>
      have some_char := List.length_pos_iff.2 (visible entry List.mem_cons_self)
      have others := ih fun entry mem => visible entry (.tail _ mem)
      cases entries with
      | nil =>
          rw [List.intercalate_singleton]
          exact some_char
      | cons second entries =>
          simp only [List.intercalate_cons_cons, List.length_append, List.length_cons] at others ⊢
          omega

/-- Behind white space and a character that does not close the brackets, items follow. -/
theorem listed_append {blank text : List Char} (space : ∀ c ∈ blank, isSpace c = true)
    (begins : Begins closing text) :
    listed item closing (blank ++ text) = items item closing (blank ++ text).length text := by
  have stands := begins.skipSpace_eq
  obtain ⟨c, rest, rfl, -, other⟩ := begins
  rw [listed, skipSpace_append space, stands]
  exact if_neg other

/-- **What stands between brackets is read back.** -/
theorem listed_enclose (layout : Layout) (level : Nat) (opening : Char) (rest : List Char)
    {xs : List α} (closes : Closes closing) (begins : ∀ x ∈ xs, Begins closing (spell x))
    (reads : ∀ x ∈ xs, ReadsBack item spell x) : ∃ inside,
      enclose layout level opening closing (xs.map spell) = opening :: inside ∧
        listed item closing (inside ++ rest) = some (xs, rest) := by
  -- Brackets with nothing between them are written without any white space, whatever the layout.
  cases xs with
  | nil =>
      refine ⟨[closing], rfl, ?_⟩
      have stands : skipSpace ([closing] ++ rest) = closing :: rest :=
        skipSpace_of_not_isSpace closes.not_space
      simp only [listed, stands, if_true]
  | cons x xs =>
      have visible : ∀ entry ∈ (x :: xs).map spell, entry ≠ [] := by
        intro entry found
        obtain ⟨y, mem, rfl⟩ := List.mem_map.1 found
        exact (begins y mem).ne_nil
      have starts : Begins closing
          ((',' :: layout.gap (level + 1)).intercalate ((x :: xs).map spell)) :=
        (begins x List.mem_cons_self).intercalate _ _
      have short := length_le_intercalate (',' :: layout.gap (level + 1)) visible
      rw [List.length_map] at short
      refine ⟨_, if_neg (by simp), ?_⟩
      simp only [List.append_assoc, List.singleton_append]
      rw [listed_append (layout.gap_blank _) (starts.append _)]
      refine items_spelled closes (layout.gap_blank _) (layout.gap_blank _) (List.cons_ne_nil _ _)
        ?_ begins reads
      simp only [List.length_append]
      exact Nat.le_trans short (by omega)

end

/-! ### Trees -/

/-- JSON has a form for the tree, in which lists and records are nested at most so deep. -/
inductive Spellable : Nat → Data → Prop where
  | null (depth : Nat) : Spellable depth .null
  | boolean (depth : Nat) (value : Bool) : Spellable depth (.boolean value)
  | integer (depth : Nat) (value : Int) : Spellable depth (.integer value)
  | text (depth : Nat) (value : String) : Spellable depth (.text value)
  | list (depth : Nat) (items : List Data) (each : ∀ item ∈ items, Spellable depth item) :
      Spellable (depth + 1) (.list items)
  | record (depth : Nat) (fields : List (String × Data))
      (each : ∀ field ∈ fields, Spellable depth field.2) : Spellable (depth + 1) (.record fields)

/-- A list of trees that JSON has a form for. -/
theorem Spellable.list_map {α : Type} {depth : Nat} {xs : List α} {encode : α → Data}
    (each : ∀ x ∈ xs, Spellable depth (encode x)) :
    Spellable (depth + 1) (.list (xs.map encode)) := by
  refine .list depth _ fun data mem => ?_
  obtain ⟨x, here, rfl⟩ := List.mem_map.1 mem
  exact each x here

theorem closes_list : Closes ']' := ⟨rfl, rfl, by decide⟩

theorem closes_record : Closes '\x7d' := ⟨rfl, rfl, by decide⟩

/-- An integer begins with a digit or a sign. -/
theorem exists_toString_eq_cons (n : Int) :
    ∃ c rest, (toString n).toList = c :: rest ∧ (c.isDigit || c = '-') = true := by
  rw [Decimal.toList_toString_int]
  split_ifs
  · obtain ⟨c, rest, same⟩ : ∃ c rest, Nat.toDigits 10 n.toNat = c :: rest :=
      List.exists_cons_of_ne_nil Nat.toDigits_ne_nil
    have digit : c.isDigit = true :=
      Nat.isDigit_of_mem_toDigits (by decide) (by decide) (same ▸ List.mem_cons_self)
    exact ⟨c, rest, same, by rw [digit, Bool.true_or]⟩
  · exact ⟨_, _, rfl, rfl⟩

/-- The text of a tree begins with a character that closes no list. -/
theorem Spellable.begins {depth : Nat} {data : Data} (spellable : Spellable depth data)
    (layout : Layout) (level : Nat) : Begins ']' (spelling layout level data) := by
  cases spellable with
  | null => exact ⟨'n', _, rfl, rfl, by decide⟩
  | boolean _ value =>
      cases value with
      | true => exact ⟨'t', _, rfl, rfl, by decide⟩
      | false => exact ⟨'f', _, rfl, rfl, by decide⟩
  | integer _ value =>
      obtain ⟨c, rest, same, numeric⟩ := exists_toString_eq_cons value
      have visible : isSpace c = false ∧ c ≠ ']' := by
        constructor
        · have printed := isNumeric_of_mem_toString value c (same ▸ List.mem_cons_self)
          by_contra space
          rw [isNumeric_of_isSpace (Bool.of_not_eq_false space)] at printed
          cases printed
        · rintro rfl
          cases numeric
      exact ⟨c, rest, by rw [spelling, same], visible⟩
  | text _ value => exact ⟨'"', _, toList_quote value, rfl, by decide⟩
  | list _ items =>
      obtain ⟨rest, same⟩ := exists_enclose_eq_cons layout level '[' ']'
        (spellings layout (level + 1) items)
      exact ⟨'[', rest, by rw [spelling, same], rfl, by decide⟩
  | record _ fields =>
      obtain ⟨rest, same⟩ := exists_enclose_eq_cons layout level '\x7b' '\x7d'
        (fieldSpellings layout (level + 1) fields)
      exact ⟨'\x7b', rest, by rw [spelling, same], rfl, by decide⟩

/-- The name of a field is read back, and then its value behind the colon. -/
theorem field_spelling {depth : Nat} {name : String} {value : Data} (layout : Layout) (level : Nat)
    (begins : Begins ']' (spelling layout level value))
    (reads : ReadsBack (valueWithin depth) (spelling layout level) value) :
    ReadsBack (field (valueWithin depth)) (fieldSpelling layout level) (name, value) := by
  intro rest ends
  have stands : skipSpace (layout.afterColon ++ (spelling layout level value ++ rest)) =
      spelling layout level value ++ rest := by
    rw [skipSpace_append layout.afterColon_blank, (begins.append rest).skipSpace_eq]
  have colon : skipSpace (':' :: (layout.afterColon ++ (spelling layout level value ++ rest))) =
      ':' :: (layout.afterColon ++ (spelling layout level value ++ rest)) :=
    skipSpace_of_not_isSpace rfl
  simp only [fieldSpelling, toList_quote, List.cons_append, List.append_assoc, field,
    List.nil_append, textRest_escapes, Option.bind_eq_bind, Option.bind_some, colon, stands,
    reads rest ends, String.ofList_toList]
  rfl

theorem valueWithin_of_numeric (depth : Nat) {c : Char} {rest : List Char}
    (numeric : (c.isDigit || c = '-') = true) :
    valueWithin depth (c :: rest) = number (c :: rest) := by
  cases depth <;> exact if_pos numeric

theorem valueWithin_quotation (depth : Nat) (rest : List Char) :
    valueWithin depth ('"' :: rest) =
      (textRest rest).map fun (chars, rest) => (.text (String.ofList chars), rest) := by
  cases depth <;> exact Option.map_eq_bind.symm

/-- **A tree is read off the front of any text that begins with its own.** -/
theorem valueWithin_spelling {depth : Nat} {data : Data} (spellable : Spellable depth data)
    (layout : Layout) (level : Nat) :
    ReadsBack (valueWithin depth) (spelling layout level) data := by
  -- The level changes from a tree to its parts, while the layout stays.
  induction spellable generalizing level with
  | null depth =>
      intro rest _
      rw [spelling]
      cases depth <;> rfl
  | boolean depth value =>
      intro rest _
      rw [spelling]
      cases value <;> cases depth <;> rfl
  | integer depth value =>
      intro rest ends
      obtain ⟨c, tail, same, numeric⟩ := exists_toString_eq_cons value
      have read := number_toString value ends
      rw [spelling]
      rw [same, List.cons_append] at read ⊢
      rw [valueWithin_of_numeric depth numeric, read]
  | text depth value =>
      intro rest _
      rw [spelling, toList_quote, List.cons_append, List.append_assoc, List.singleton_append,
        valueWithin_quotation, textRest_escapes, Option.map_some]
      simp only [String.ofList_toList]
  | list depth items each ih =>
      intro rest _
      obtain ⟨inside, same, read⟩ := listed_enclose layout level '[' rest closes_list
        (fun item mem => (each item mem).begins layout (level + 1))
        (fun item mem => ih item mem (level + 1))
      rw [spelling, spellings_eq_map, same]
      show (listed (valueWithin depth) ']' (inside ++ rest)).bind _ = _
      rw [read]
      rfl
  | record depth fields each ih =>
      intro rest _
      have begins : ∀ field ∈ fields, Begins '\x7d' (fieldSpelling layout (level + 1) field) :=
        fun field _ => ⟨'"', _, congrArg (· ++ _) (toList_quote field.1), rfl, by decide⟩
      obtain ⟨inside, same, read⟩ := listed_enclose layout level '\x7b' rest closes_record begins
        (fun field mem => field_spelling layout (level + 1)
          ((each field mem).begins layout (level + 1)) (ih field mem (level + 1)))
      rw [spelling, fieldSpellings_eq_map, same]
      show (listed (field (valueWithin depth)) '\x7d' (inside ++ rest)).bind _ = _
      rw [read]
      rfl

/-- **The text of a tree reads back as the tree**, in any layout. -/
theorem read_spelling {data : Data} (spellable : Spellable deepest data) (layout : Layout) :
    read (String.ofList (spelling layout 0 data)) = some data := by
  have visible := (spellable.begins layout 0).skipSpace_eq
  have found := valueWithin_spelling spellable layout 0 [] (by rintro c ⟨⟩)
  rw [List.append_nil] at found
  rw [read, String.toList_ofList, visible, found]
  rfl

/-- **The text with each entry on a line of its own reads back as the tree.** -/
theorem read_pretty {data : Data} (spellable : Spellable deepest data) :
    read (pretty 0 data) = some data := by
  rw [← read_spelling spellable .lines, ← toList_pretty, String.ofList_toList]

end RevisionStore.Json
