/-
**The lines of what is printed.**

A line ends at a line break, and it makes no difference whether the line break was printed behind an
entry or stands in the entry.  So an entry with a line break behind it makes one line if it has no
line break of its own, and one more for each that it has.

Main definitions:

* `CommandLine.lines` — the lines of what was printed;
* `CommandLine.rows` — the lines that one entry makes.

Main results:

* `CommandLine.lines_join`, `CommandLine.lines_asLines` — entries make their lines one after
  another;
* `CommandLine.lines_join_eq_iff` — **there is one line for each entry exactly if no entry has a
  line break**;
* `CommandLine.rows_append` — what stands in front of a text belongs to its first line.
-/

import RevisionStore.CommandLine.Run
import Mathlib.Data.List.Basic
import Mathlib.Tactic.SplitIfs

set_option autoImplicit false

namespace RevisionStore.CommandLine

/-- The lines of what was printed: what stands before each line break. -/
def lines (printed : String) : List String :=
  (printed.toList.splitOn '\n').dropLast.map String.ofList

/-- The lines that a text makes if a line break is printed behind it. -/
def rows (text : String) : List String := (text.toList.splitOn '\n').map String.ofList

theorem rows_ne_nil (text : String) : rows text ≠ [] :=
  mt List.map_eq_nil_iff.1 (List.splitOn_ne_nil '\n' text.toList)

/-! ### One entry after another -/

/-- The lines of an entry come before those of what is printed behind it. -/
theorem lines_append (text rest : String) :
    lines (text ++ "\n" ++ rest) = rows text ++ lines rest := by
  have cut : (text ++ "\n" ++ rest).toList = text.toList ++ '\n' :: rest.toList := by simp
  rw [lines, cut, List.splitOn_append_cons_self,
    List.dropLast_append_of_ne_nil (List.splitOn_ne_nil _ _), List.map_append]
  rfl

section

variable {α : Type} (line : α → String) (entries : List α)

/-- **Entries with a line break behind each of them make their lines one after another.** -/
theorem lines_join : lines (String.join (entries.map fun entry => line entry ++ "\n")) =
    entries.flatMap fun entry => rows (line entry) := by
  induction entries with
  | nil => rfl
  | cons entry entries ih =>
      rw [List.map_cons, String.join_cons, lines_append, ih, List.flatMap_cons]

/-- What a command prints for its entries is each of them with a line break behind it. -/
theorem asLines_map : asLines (entries.map line) =
    String.join (entries.map fun entry => line entry ++ "\n") := by
  rw [asLines, List.map_map]
  rfl

end

theorem lines_asLines (texts : List String) : lines (asLines texts) = texts.flatMap rows :=
  lines_join id texts

/-! ### One line for each entry -/

theorem rows_of_plain {text : String} (plain : '\n' ∉ text.toList) : rows text = [text] := by
  rw [rows, List.splitOn_eq_singleton plain, List.map_singleton, String.ofList_toList]

/-- A text makes one line, and one more for each line break that it has. -/
theorem length_rows (text : String) : (rows text).length = text.toList.count '\n' + 1 := by
  rw [rows, List.length_map]
  induction text.toList with
  | nil => rfl
  | cons c chars ih =>
      rw [List.splitOn_cons_eq_if_modifyHead, List.count_cons]
      split_ifs
      · rw [List.length_cons, ih]
      · rw [List.length_modifyHead, ih]

theorem length_le_flatMap_rows (texts : List String) :
    texts.length ≤ (texts.flatMap rows).length := by
  induction texts with
  | nil => exact Nat.le_refl _
  | cons text texts ih =>
      have := length_rows text
      rw [List.flatMap_cons, List.length_append, List.length_cons]
      omega

theorem flatMap_rows_eq_iff {texts : List String} :
    texts.flatMap rows = texts ↔ ∀ text ∈ texts, '\n' ∉ text.toList := by
  induction texts with
  | nil => simp
  | cons text texts ih =>
      rw [List.flatMap_cons, List.forall_mem_cons, ← ih]
      constructor
      · intro same
        -- The others make as many lines as they are or more, so this one makes no more than one.
        have plain : '\n' ∉ text.toList := by
          have size := congrArg List.length same
          have others := length_le_flatMap_rows texts
          have own := length_rows text
          rw [List.length_append, List.length_cons] at size
          exact List.count_eq_zero.1 (by omega)
        rw [rows_of_plain plain] at same
        exact ⟨plain, (List.cons.inj same).2⟩
      · rintro ⟨plain, same⟩
        rw [rows_of_plain plain, same, List.singleton_append]

/-- **There is one line for each entry exactly if no entry has a line break.** -/
theorem lines_join_eq_iff {α : Type} {line : α → String} {entries : List α} :
    lines (String.join (entries.map fun entry => line entry ++ "\n")) = entries.map line ↔
      ∀ entry ∈ entries, '\n' ∉ (line entry).toList := by
  rw [lines_join, ← List.flatMap_map, flatMap_rows_eq_iff, List.forall_mem_map]

/-! ### What stands in front of a text -/

theorem splitOn_append {front chars first : List Char} {others : List (List Char)}
    (plain : '\n' ∉ front) (cut : chars.splitOn '\n' = first :: others) :
    (front ++ chars).splitOn '\n' = (front ++ first) :: others := by
  induction front with
  | nil => exact cut
  | cons c front ih =>
      obtain ⟨other, plain⟩ := not_or.1 (mt List.mem_cons.2 plain)
      have not_break : ¬ (c == '\n') = true := fun same => other (beq_iff_eq.1 same).symm
      rw [List.cons_append, List.splitOn_cons_eq_if_modifyHead, if_neg not_break, ih plain]
      rfl

/-- **What stands in front of a text belongs to its first line.** -/
theorem rows_append {front text first : String} {others : List String}
    (plain : '\n' ∉ front.toList) (cut : rows text = first :: others) :
    rows (front ++ text) = (front ++ first) :: others := by
  obtain ⟨chars, others', same, rfl, rfl⟩ := List.map_eq_cons_iff.1 cut
  rw [rows, String.toList_append, splitOn_append plain same, List.map_cons, String.ofList_append,
    String.ofList_toList]

end RevisionStore.CommandLine
