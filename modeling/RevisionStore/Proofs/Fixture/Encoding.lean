/-
**A fixture is read back from what it is written as.**

Every value that a field can hold is read back from its tree, and nothing from none.  The names of
the fields are those that the reader knows, each of them once, and the tag of a step, which is made
from the words for its kind, is the name that the reader tells the kinds apart by.  A fixture is
nested no deeper than a text of JSON may be, so its text is read back too.

Main definitions:

* `Fixture.File.toJson`, `Fixture.File.ofJson?` — the JSON text of a fixture in some layout, and the
  fixture that a text describes.

Main results:

* `Fixture.checkNames_eq_ok_iff` — the fields that a record may have;
* `Fixture.Step.tagText_eq_op` — the tag that is written is the name of the kind;
* `Fixture.Step.ofData_toData`, `Fixture.RepositoryPlan.ofData_toData`,
  `Fixture.ClockSettings.ofData_toData`, `Fixture.File.ofData_toData` — the parts, and the whole,
  are read back from their trees;
* `Fixture.File.survives_encoding` — **a fixture is read back from its JSON text**.
-/

import RevisionStore.Fixture.Load
import RevisionStore.Proofs.JsonText

set_option autoImplicit false

namespace RevisionStore.Fixture

/-! ### Values -/

theorem readInt64_toInt (n : Int64) : readInt64 (.integer n.toInt) = .ok n := by
  have held : Int64.minValue.toInt ≤ n.toInt ∧ n.toInt ≤ Int64.maxValue.toInt :=
    ⟨Int64.minValue_le_toInt n, Int64.toInt_le n⟩
  rw [readInt64, if_pos held, Int64.ofInt_toInt]

theorem readUInt64_toNat (n : UInt64) : readUInt64 (.integer n.toNat) = .ok n := by
  have held : (0 : Int) ≤ n.toNat ∧ (n.toNat : Int) < UInt64.size :=
    ⟨Int.natCast_nonneg _, by exact_mod_cast n.toNat_lt_size⟩
  rw [readUInt64, if_pos held, Int.toNat_natCast, UInt64.ofNat_toNat]

section

variable {α : Type} {read : Reading α} {encode : α → Data}

theorem readList_map {xs : List α} (each : ∀ x ∈ xs, read (encode x) = .ok x) :
    readList read (.list (xs.map encode)) = .ok xs := by
  induction xs with
  | nil => rfl
  | cons x xs ih =>
      have first := each x List.mem_cons_self
      have others := ih fun y mem => each y (.tail _ mem)
      rw [readList] at others ⊢
      rw [List.map_cons, List.mapM_cons, first, others]
      rfl

/-! ### Fields -/

/-- A field that holds a value or nothing is read back if no value is written as nothing. -/
theorem Fields.optional_eq_ok (encode : α → Data) {fields : Fields} {name : String}
    {value : Option α} (found : fields.lookup name = some ((value.map encode).getD .null))
    (something : ∀ x, encode x ≠ .null) (each : ∀ x, read (encode x) = .ok x) :
    fields.optional name read = .ok value := by
  cases value with
  | none => rw [Fields.optional, found]; rfl
  | some x =>
      rw [Fields.optional, found, Option.map_some, Option.getD_some]
      split
      · case _ none => cases none
      · case _ null => exact absurd (Option.some.inj null) (something x)
      · case _ same => cases same; rw [each]; rfl

end

theorem Fields.optional_ofText? {fields : Fields} {name : String} {value : Option String}
    (found : fields.lookup name = some (.ofText? value)) :
    fields.optional name readText = .ok value := by
  refine Fields.optional_eq_ok Data.text ?_ (by rintro x ⟨⟩) fun _ => rfl
  cases value <;> exact found

theorem Fields.optional_ofInt64? {fields : Fields} {name : String} {value : Option Int64}
    (found : fields.lookup name = some (.ofInt64? value)) :
    fields.optional name readInt64 = .ok value := by
  refine Fields.optional_eq_ok (fun n => Data.integer n.toInt) ?_ (by rintro x ⟨⟩)
    readInt64_toInt
  cases value <;> exact found

/-- **The fields that a record may have**: those of the given names, each at most once. -/
theorem checkNames_eq_ok_iff {names : List String} {fields : Fields} :
    checkNames names fields = .ok () ↔
      (∀ field ∈ fields, field.1 ∈ names) ∧ (fields.map Prod.fst).Nodup := by
  induction fields with
  | nil => simp [checkNames]
  | cons field fields ih =>
      rw [checkNames, List.forall_mem_cons, List.map_cons, List.nodup_cons]
      by_cases known : field.1 ∈ names
      · by_cases repeated : field.1 ∈ fields.map Prod.fst
        · have again : fields.any (fun other => other.1 = field.1) = true := by
            simpa [List.any_eq_true] using repeated
          rw [if_neg (not_not_intro (List.contains_iff_mem.2 known)), if_pos again]
          exact iff_of_false (by rintro ⟨⟩) fun allowed => allowed.2.1 repeated
        · have once : ¬ fields.any (fun other => other.1 = field.1) = true := by
            simpa [List.any_eq_true] using repeated
          rw [if_neg (not_not_intro (List.contains_iff_mem.2 known)), if_neg once, ih]
          simp only [known, repeated, true_and, not_false_eq_true]
      · rw [if_pos (mt List.contains_iff_mem.1 known)]
        exact iff_of_false (by rintro ⟨⟩) fun allowed => known allowed.1.1

/-- Fields with different names are those of their own names. -/
theorem checkNames_self {fields : Fields} (distinct : (fields.map Prod.fst).Nodup) :
    checkNames (fields.map Prod.fst) fields = .ok () :=
  checkNames_eq_ok_iff.2 ⟨fun _ mem => List.mem_map_of_mem mem, distinct⟩

/-- A record with the given names in their order is read as its fields. -/
theorem readFields_record (surplus : Surplus) {names : List String} {fields : Fields}
    (named : fields.map Prod.fst = names) (distinct : names.Nodup) :
    readFields surplus names (.record fields) = .ok fields := by
  subst named
  rw [readFields, checkNames_self distinct]
  rfl

/-! ### Steps -/

/-- **The tag that is written is the name of the kind.** -/
theorem Step.tagText_eq_op (step : Step) : step.tagText = step.op := by
  cases step <;> (simp only [Step.tagText, Step.kindWords, Step.op]; decide)

theorem Step.toData_eq (step : Step) :
    step.toData = .record (("op", .text step.op) :: step.fields) := by
  rw [Step.toData, Step.tagText_eq_op]

theorem Step.fieldNames?_op (step : Step) :
    Step.fieldNames? step.op = some (step.fields.map Prod.fst) := by
  cases step <;> rfl

/-- No field of a step has the name of the tag, or of another field. -/
theorem Step.nodup_names (step : Step) : ("op" :: step.fields.map Prod.fst).Nodup := by
  cases step <;> simp [Step.fields]

theorem Step.ofFields_fields (step : Step) : Step.ofFields step.op step.fields = .ok step := by
  -- Only the fields that may hold nothing, and the number, are read by more than their sort.
  cases step with
  | createBranch | cloneBranch | deleteBranch | removeFile | tag | deleteTag => rfl
  | addFile _ _ _ content contentHex => cases content <;> cases contentHex <;> rfl
  | openChangeRequest _ title => cases title <;> rfl
  | closeChangeRequest number => exact bind_eq_ok_iff.2 ⟨number, readUInt64_toNat number, rfl⟩

/-- **A step is read back from its tree.** -/
theorem Step.ofData_toData (step : Step) : Step.ofData step.toData = .ok step := by
  obtain ⟨tagless, distinct⟩ := List.nodup_cons.1 step.nodup_names
  have rest : (("op", Data.text step.op) :: step.fields).filter (fun field => field.1 ≠ "op") =
      step.fields := by
    rw [List.filter_cons_of_neg (by simp), List.filter_eq_self]
    intro field mem
    exact decide_eq_true fun same => tagless (same ▸ List.mem_map_of_mem mem)
  have single : ¬ step.fields.length + 1 < (("op", Data.text step.op) :: step.fields).length :=
    Nat.lt_irrefl _
  rw [Step.toData_eq, Step.ofData]
  refine bind_eq_ok_iff.2 ⟨step.op, rfl, ?_⟩
  simp only [rest]
  rw [if_neg single, Step.fieldNames?_op]
  exact check_bind_eq_ok_iff.2 ⟨checkNames_self distinct, step.ofFields_fields⟩

/-! ### Fixtures -/

/-- **A repository is read back from its tree.** -/
theorem RepositoryPlan.ofData_toData (surplus : Surplus) (plan : RepositoryPlan) :
    RepositoryPlan.ofData surplus plan.toData = .ok plan := by
  refine bind_eq_ok_iff.2 ⟨_, readFields_record surplus rfl (by decide), ?_⟩
  refine bind_eq_ok_iff.2 ⟨plan.name, rfl, ?_⟩
  refine bind_eq_ok_iff.2 ⟨plan.description, Fields.optional_ofText? rfl, ?_⟩
  refine bind_eq_ok_iff.2 ⟨plan.primaryBranch, Fields.optional_ofText? rfl, ?_⟩
  exact bind_eq_ok_iff.2 ⟨plan.steps, readList_map fun step _ => step.ofData_toData, rfl⟩

/-- **Clock settings are read back from their tree.** -/
theorem ClockSettings.ofData_toData (surplus : Surplus) (settings : ClockSettings) :
    ClockSettings.ofData surplus settings.toData = .ok settings := by
  refine bind_eq_ok_iff.2 ⟨_, readFields_record surplus rfl (by decide), ?_⟩
  refine bind_eq_ok_iff.2 ⟨settings.fixed, Fields.optional_ofInt64? rfl, ?_⟩
  refine bind_eq_ok_iff.2 ⟨settings.start, Fields.optional_ofInt64? rfl, ?_⟩
  exact bind_eq_ok_iff.2 ⟨settings.step, Fields.optional_ofInt64? rfl, rfl⟩

/-- **A fixture is read back from its tree.** -/
theorem File.ofData_toData (surplus : Surplus) (file : File) :
    File.ofData surplus file.toData = .ok file := by
  refine bind_eq_ok_iff.2 ⟨_, readFields_record surplus rfl (by decide), ?_⟩
  refine bind_eq_ok_iff.2 ⟨file.clock, Fields.optional_eq_ok ClockSettings.toData rfl
    (by rintro x ⟨⟩) (ClockSettings.ofData_toData surplus), ?_⟩
  exact bind_eq_ok_iff.2 ⟨file.repositories,
    readList_map fun plan _ => plan.ofData_toData surplus, rfl⟩

/-! ### Texts -/

theorem spellable_ofText? (depth : Nat) (value : Option String) :
    Json.Spellable depth (.ofText? value) := by
  cases value with
  | none => exact .null depth
  | some value => exact .text depth value

theorem spellable_ofInt64? (depth : Nat) (value : Option Int64) :
    Json.Spellable depth (.ofInt64? value) := by
  cases value with
  | none => exact .null depth
  | some value => exact .integer depth value.toInt

theorem Step.spellable (depth : Nat) (step : Step) : Json.Spellable (depth + 1) step.toData := by
  refine .record depth _ (List.forall_mem_cons.2 ⟨.text depth _, ?_⟩)
  cases step <;> simp [Step.fields, Json.Spellable.text, Json.Spellable.integer, spellable_ofText?]

theorem RepositoryPlan.spellable (depth : Nat) (plan : RepositoryPlan) :
    Json.Spellable (depth + 3) plan.toData := by
  have steps : Json.Spellable (depth + 2) (.list (plan.steps.map Step.toData)) :=
    .list_map fun step _ => step.spellable depth
  refine .record _ _ ?_
  simp [steps, Json.Spellable.text, spellable_ofText?]

theorem ClockSettings.spellable (depth : Nat) (settings : ClockSettings) :
    Json.Spellable (depth + 1) settings.toData :=
  .record _ _ (by simp [spellable_ofInt64?])

/-- A fixture is nested five deep. -/
theorem File.spellable (depth : Nat) (file : File) : Json.Spellable (depth + 5) file.toData := by
  have repositories :
      Json.Spellable (depth + 4) (.list (file.repositories.map RepositoryPlan.toData)) :=
    .list_map fun plan _ => plan.spellable depth
  have clock : Json.Spellable (depth + 4) ((file.clock.map ClockSettings.toData).getD .null) := by
    cases file.clock with
    | none => exact .null _
    | some settings => exact settings.spellable (depth + 3)
  refine .record _ _ ?_
  simp [repositories, clock]

/-- The JSON text of the fixture in some layout. -/
def File.toJson (layout : Json.Layout) (file : File) : String :=
  String.ofList (Json.spelling layout 0 file.toData)

/-- The fixture that a text describes, if the text is JSON. -/
def File.ofJson? (text : String) : Option (Except SchemaProblem File) :=
  (Json.read text).map (File.ofData .refused)

theorem File.ofJson?_of_read {text : String} {file : File}
    (read : Json.read text = some file.toData) : File.ofJson? text = some (.ok file) := by
  rw [File.ofJson?, read, Option.map_some, File.ofData_toData]

/-- **A fixture is read back from its JSON text.**  In whatever layout it is written, the text is
read as the fixture's tree, in which each step bears the name of its kind as its tag and no other
field of it has the name of the tag.  The fixture that the text describes is the one that was
written, and the checks say the same of both. -/
theorem File.survives_encoding (layout : Json.Layout) (file : File) :
    Json.read (file.toJson layout) = some file.toData ∧
    File.ofJson? (file.toJson layout) = some (.ok file) ∧
    File.ofJson? (Json.pretty 0 file.toData) = some (.ok file) ∧
    (∀ plan ∈ file.repositories, ∀ step ∈ plan.steps,
      step.toData = .record (("op", .text step.op) :: step.fields) ∧
        "op" ∉ step.fields.map Prod.fst) ∧
    ∀ again, File.ofJson? (file.toJson layout) = some (.ok again) →
      again.validate = file.validate := by
  have spellable : Json.Spellable Json.deepest file.toData := file.spellable 122
  have read : Json.read (file.toJson layout) = some file.toData :=
    Json.read_spelling spellable layout
  have described := File.ofJson?_of_read read
  refine ⟨read, described, File.ofJson?_of_read (Json.read_pretty spellable),
    fun plan _ step _ => ?_, fun again same => ?_⟩
  · exact ⟨step.toData_eq, (List.nodup_cons.1 step.nodup_names).1⟩
  · rw [described] at same
    cases same
    rfl

/-- A fixture with one step, and the largest number in it. -/
theorem File.survives_encoding_oneStep :
    File.toJson .dense ⟨none, [⟨"r", none, none, [.closeChangeRequest 18446744073709551615]⟩]⟩ =
      "\x7b\"clock\":null,\"repository\":[\x7b\"name\":\"r\",\"description\":null," ++
      "\"primary_branch\":null,\"step\":[\x7b\"op\":\"close-change-request\"," ++
      "\"number\":18446744073709551615\x7d]\x7d]\x7d" ∧
    File.ofJson? (File.toJson .dense
      ⟨none, [⟨"r", none, none, [.closeChangeRequest 18446744073709551615]⟩]⟩) =
        some (.ok ⟨none, [⟨"r", none, none, [.closeChangeRequest 18446744073709551615]⟩]⟩) :=
  ⟨by decide +kernel, (File.survives_encoding .dense _).2.1⟩

end RevisionStore.Fixture
