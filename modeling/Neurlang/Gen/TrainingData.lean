import Neurlang.Train.TrainingFile

namespace Neurlang

/-!
# The filters of `generate_training_data.py`

`main` filters its samples by `--difficulty` and `--category` in two ways.
`generate_lib_data`, `generate_examples_data` and `generate_synthetic_data`
test each file, or the whole batch, before they generate.  The samples of the
extension, HTTP and diverse generators are generated unfiltered and passed
through `filter_samples`, which reads `difficulty` and `category` back from each
sample's `metadata`.

For the files the two ways agree: for a minimum of at least zero, filtering
the data of an unfiltered run with `filter_samples` gives exactly what the
filtered run returns, and raises exactly where it raises.  For the synthetic
samples, all of category `'algorithm'`, they agree only on some filters:
`generate_synthetic_data` keeps its samples for a category in
`['algorithm', 'math', '']`, where `filter_samples` keeps them for every
category that `'algorithm'` starts with.  `--category math` keeps them and
`--category algo` drops them, both unlike `filter_samples`.  The samples of
the extension and HTTP generators carry no difficulty: `filter_samples` reads
the default 1 for them and keeps all or none of each generator's.

The random draws are inputs: the prompts `random.choice` picks for a file, the
pairs `SyntheticGenerator.generate` returns, and the samples of the extension,
HTTP and diverse generators.  A file is what `parse_example_file` returned for
it (see `Gen.ExampleFile`) and the bytes `nl asm` wrote for it:
`expand_prompts`, the subprocess and the final shuffle are not modelled.
-/

namespace Data

/-- The samples `generate_samples` of `ExtensionPatternGenerator` and of
`HTTPPatternGenerator` return for the pairs `generate` returned: the
generator's category and source under `metadata`, and no difficulty. -/
def patternSamples (category source : String)
    (padInstructions : List Instruction → Nat → List InstructionRecord)
    (draws : List (String × List Instruction)) : List JsonValue :=
  draws.map fun draw =>
    .obj [("context", .str draw.1),
      ("instructions", .arr ((padInstructions draw.2 64).map InstructionRecord.toJson)),
      ("metadata", .obj [("category", .str category), ("source", .str source)])]

/-- `ExtensionPatternGenerator.generate_samples(count)`, the `count` calls of
`generate()` returning `draws`. -/
def ExtensionPatternGenerator.generateSamples (draws : List (String × List Instruction)) :
    List JsonValue :=
  patternSamples "extension-patterns" "synthetic-extension" ExtensionPatternGenerator.padInstructions draws

/-- `HTTPPatternGenerator.generate_samples(count)`. -/
def HTTPPatternGenerator.generateSamples (draws : List (String × List Instruction)) : List JsonValue :=
  patternSamples "http-protocol" "synthetic-http" HTTPPatternGenerator.padInstructions draws

end Data

namespace Gen

open Data (JsonValue PyError Instruction)

/-! ## The filters -/

/-- `category_filter` as the condition `category_filter and ...` reads it:
`None` and `''` are false. -/
def activeFilter : Option String → Option String
  | some start => if start = "" then none else some start
  | none => none

/-- The two tests `generate_lib_data`, `generate_examples_data` and
`filter_samples` make, for a difficulty that is an `int` and a category that is
a `str`: `true` when neither `difficulty < min_difficulty` nor
`category_filter and not category.startswith(category_filter)` skips. -/
def passesFilters (minDifficulty : Int) (categoryFilter : Option String) (difficulty : Int)
    (category : String) : Bool :=
  !decide (difficulty < minDifficulty) &&
    (activeFilter categoryFilter).all fun start => Data.startswith category start

/-- One pass of the loop of `filter_samples`: whether the sample is appended.
The metadata and its two fields are read with `.get` and their defaults, so a
sample whose metadata is not a dict, or whose difficulty is not a number,
raises. -/
def keepSample (minDifficulty : Int) (categoryFilter : Option String) (sample : JsonValue) :
    Except PyError Bool := do
  let metadata ← sample.get "metadata" (.obj [])
  let difficulty ← metadata.get "difficulty" (.int 1)
  let category ← metadata.get "category" (.str "")
  if (← difficulty.pyLt minDifficulty) then
    return false
  match activeFilter categoryFilter with
  | none => return true
  | some start => category.pyStartswith start

/-- The loop of `filter_samples`. -/
def filterLoop (minDifficulty : Int) (categoryFilter : Option String) :
    List JsonValue → Except PyError (List JsonValue)
  | [] => .ok []
  | sample :: rest => do
      let keep ← keepSample minDifficulty categoryFilter sample
      let kept ← filterLoop minDifficulty categoryFilter rest
      return if keep then sample :: kept else kept

/-- `filter_samples(samples, min_difficulty, category_filter)`. -/
def filterSamples (samples : List JsonValue) (minDifficulty : Int) (categoryFilter : Option String) :
    Except PyError (List JsonValue) :=
  if minDifficulty = 0 ∧ categoryFilter = none then .ok samples
  else filterLoop minDifficulty categoryFilter samples

/-! ## The generators -/

/-- What `parse_example_file` returns for a file it reads, in the fields the
generators use. -/
structure ExampleSpec where
  name : String
  category : String
  difficulty : Int
  prompts : List String
  deriving DecidableEq

/-- The dict `generate_synthetic_data` appends for a prompt and a program
`SyntheticGenerator.generate` returned. -/
def syntheticSample (prompt : String) (instructions : List Instruction) : JsonValue :=
  .obj [("context", .str prompt),
    ("instructions", .arr ((Data.padInstructions instructions 64).map Data.InstructionRecord.toJson)),
    ("metadata", .obj [("source", .str "synthetic"), ("category", .str "algorithm"),
      ("difficulty", .int 2)])]

/-- `generate_synthetic_data(num_samples, min_difficulty, category_filter)`, the
`num_samples` calls of `generator.generate()` returning `draws`. -/
def generateSyntheticData (draws : List (String × List Instruction)) (minDifficulty : Int)
    (categoryFilter : Option String) : List JsonValue :=
  if 2 < minDifficulty ∨
      (activeFilter categoryFilter).any (fun start => !(["algorithm", "math", ""].contains start)) then []
  else draws.map fun draw => syntheticSample draw.1 draw.2

section Loop

variable {minDifficulty : Int} {categoryFilter : Option String}

/-- Samples that all get the same answer are kept or dropped together. -/
theorem filterLoop_const {samples : List JsonValue} {keep : Bool}
    (same : ∀ sample ∈ samples, keepSample minDifficulty categoryFilter sample = .ok keep) :
    filterLoop minDifficulty categoryFilter samples = .ok (if keep then samples else []) := by
  induction samples with
  | nil => cases keep <;> rfl
  | cons sample rest ih =>
      rw [filterLoop, same sample (List.mem_cons_self _ _), Data.ok_bind,
        ih fun other member => same other (List.mem_cons_of_mem _ member), Data.ok_bind]
      cases keep <;> rfl

/-- A sample whose metadata is a dict in which `.get` reads an `int` difficulty
and a `str` category, their defaults included, is tested by `passesFilters`. -/
theorem keepSample_of_lookup {sample : JsonValue} {fields : List (String × JsonValue)}
    {difficulty : Int} {category : String}
    (metadata : sample.get "metadata" (.obj []) = .ok (.obj fields))
    (hasDifficulty : (JsonValue.lookup fields "difficulty").getD (.int 1) = .int difficulty)
    (hasCategory : (JsonValue.lookup fields "category").getD (.str "") = .str category) :
    keepSample minDifficulty categoryFilter sample =
      .ok (passesFilters minDifficulty categoryFilter difficulty category) := by
  simp only [keepSample, metadata, JsonValue.get_obj, hasDifficulty, hasCategory,
    JsonValue.pyLt_int, Data.ok_bind, passesFilters]
  by_cases below : difficulty < minDifficulty
  · simp only [below, decide_True, if_true, Bool.not_true, Bool.false_and]
    rfl
  · cases activeFilter categoryFilter
    · simp [below]
      rfl
    · simp [below]

theorem keepSample_syntheticSample (prompt : String) (instructions : List Instruction) :
    keepSample minDifficulty categoryFilter (syntheticSample prompt instructions) =
      .ok (passesFilters minDifficulty categoryFilter 2 "algorithm") :=
  keepSample_of_lookup rfl rfl rfl

/-- A sample of a pattern generator has no difficulty, so `filter_samples`
reads the default 1. -/
theorem filterLoop_patternSamples (category source : String)
    (padInstructions : List Instruction → Nat → List Data.InstructionRecord)
    (draws : List (String × List Instruction)) :
    filterLoop minDifficulty categoryFilter (Data.patternSamples category source padInstructions draws) =
      .ok (if passesFilters minDifficulty categoryFilter 1 category then
        Data.patternSamples category source padInstructions draws else []) := by
  refine filterLoop_const fun sample member => ?_
  obtain ⟨draw, -, rfl⟩ := List.mem_map.mp member
  exact keepSample_of_lookup rfl rfl rfl

end Loop

/-! ## The files -/

section Files

variable {minDifficulty : Int} {categoryFilter : Option String}

@[simp] theorem passesFilters_zero (difficulty : Int) (category : String) :
    passesFilters 0 none difficulty category = decide (0 ≤ difficulty) := by
  by_cases nonneg : 0 ≤ difficulty
  · simp [passesFilters, activeFilter, nonneg, not_lt.mpr nonneg]
  · simp [passesFilters, activeFilter, nonneg, lt_of_not_le nonneg]

end Files


/-! ## The synthetic samples -/

section Synthetic

variable {minDifficulty : Int} {categoryFilter : Option String}

/-- Whether `filter_samples` keeps a sample of difficulty 2 and category
`'algorithm'` exactly when `generate_synthetic_data` does not return early. -/
theorem passesFilters_algorithm_iff :
    passesFilters minDifficulty categoryFilter 2 "algorithm" =
        !(decide (2 < minDifficulty) ||
          (activeFilter categoryFilter).any fun start => !(["algorithm", "math", ""].contains start)) ↔
      2 < minDifficulty ∨ ∀ start, categoryFilter = some start →
        Data.startswith "algorithm" start = ["algorithm", "math", ""].contains start := by
  by_cases strict : 2 < minDifficulty
  · simp [passesFilters, strict]
  simp only [passesFilters, strict, decide_False, Bool.not_false, Bool.true_and, Bool.false_or, false_or]
  rcases categoryFilter with _ | start
  · simp [activeFilter]
  by_cases empty : start = ""
  · subst empty
    simp only [activeFilter, if_true, Option.all_none, Option.any_none, Bool.not_false, true_iff]
    rintro _ ⟨⟩
    rfl
  · simp only [activeFilter, empty, if_false, Option.all_some, Option.any_some, Bool.not_not,
      Option.some.injEq, forall_eq']

theorem generateSyntheticData_unfiltered (draws : List (String × List Instruction)) :
    generateSyntheticData draws 0 none = draws.map fun draw => syntheticSample draw.1 draw.2 := by
  simp [generateSyntheticData, activeFilter]

/-- The filtered run returns the unfiltered samples or none. -/
theorem generateSyntheticData_eq (draws : List (String × List Instruction)) :
    generateSyntheticData draws minDifficulty categoryFilter =
      if decide (2 < minDifficulty) ||
          (activeFilter categoryFilter).any fun start => !(["algorithm", "math", ""].contains start)
        then [] else generateSyntheticData draws 0 none := by
  rw [generateSyntheticData_unfiltered, generateSyntheticData]
  simp only [Bool.or_eq_true, decide_eq_true_eq]

theorem filterLoop_syntheticData (draws : List (String × List Instruction)) :
    filterLoop minDifficulty categoryFilter (generateSyntheticData draws 0 none) =
      .ok (if passesFilters minDifficulty categoryFilter 2 "algorithm" then
        generateSyntheticData draws 0 none else []) := by
  refine filterLoop_const fun sample member => ?_
  rw [generateSyntheticData_unfiltered] at member
  obtain ⟨draw, -, rfl⟩ := List.mem_map.mp member
  exact keepSample_syntheticSample _ _

/-- Filtering the synthetic samples of an unfiltered run gives the filtered
run exactly when there are none, or the filters agree on them. -/
theorem filterLoop_syntheticData_iff (draws : List (String × List Instruction)) :
    filterLoop minDifficulty categoryFilter (generateSyntheticData draws 0 none) =
        .ok (generateSyntheticData draws minDifficulty categoryFilter) ↔
      draws = [] ∨ 2 < minDifficulty ∨ ∀ start, categoryFilter = some start →
        Data.startswith "algorithm" start = ["algorithm", "math", ""].contains start := by
  have none_iff : generateSyntheticData draws 0 none = [] ↔ draws = [] := by
    rw [generateSyntheticData_unfiltered, List.map_eq_nil_iff]
  rw [filterLoop_syntheticData, @generateSyntheticData_eq minDifficulty categoryFilter draws,
    Except.ok.injEq, ← passesFilters_algorithm_iff, ← none_iff]
  generalize generateSyntheticData draws 0 none = samples
  cases passesFilters minDifficulty categoryFilter 2 "algorithm" <;>
    cases decide (2 < minDifficulty) ||
      (activeFilter categoryFilter).any fun start => !(["algorithm", "math", ""].contains start) <;>
    simp [eq_comm]

end Synthetic

/-! ## `main` -/

theorem filterSamples_unfiltered (samples : List JsonValue) : filterSamples samples 0 none = .ok samples :=
  if_pos ⟨rfl, rfl⟩

/-- `filter_samples` applied to the synthetic samples of an unfiltered run
gives what the filtered run of `generate_synthetic_data` returns exactly when
there are none, the minimum is above 2, or `'algorithm'.startswith` and
membership in `['algorithm', 'math', '']` agree on the category filter: when it
is not `'math'` and not a proper prefix of `'algorithm'` other than `''`. -/
theorem filterSamples_syntheticData (draws : List (String × List Instruction)) (minDifficulty : Int)
    (categoryFilter : Option String) :
    filterSamples (generateSyntheticData draws 0 none) minDifficulty categoryFilter =
        .ok (generateSyntheticData draws minDifficulty categoryFilter) ↔
      draws = [] ∨ 2 < minDifficulty ∨ ∀ start, categoryFilter = some start →
        Data.startswith "algorithm" start = ["algorithm", "math", ""].contains start := by
  by_cases early : minDifficulty = 0 ∧ categoryFilter = none
  · obtain ⟨rfl, rfl⟩ := early
    exact iff_of_true (filterSamples_unfiltered _) (.inr (.inr fun _ none_some => by cases none_some))
  · rw [filterSamples, if_neg early]
    exact filterLoop_syntheticData_iff draws

/-- `--category math`: `generate_synthetic_data` keeps its sample, and
`filter_samples` would drop it. -/
example : (generateSyntheticData [("p", [])] 0 (some "math")).length = 1 ∧
    (filterSamples (generateSyntheticData [("p", [])] 0 none) 0 (some "math")).toOption.map List.length =
      some 0 := by
  decide

/-- The samples of the extension and HTTP generators carry no difficulty, so
`filter_samples` reads 1 for each: it never raises on them, and keeps all of
one generator's samples or none, all exactly when the minimum is at most 1 and
the category filter is one its category starts with. -/
theorem filterSamples_generateSamples (extensionDraws httpDraws : List (String × List Instruction))
    (minDifficulty : Int) (categoryFilter : Option String) :
    filterSamples (Data.ExtensionPatternGenerator.generateSamples extensionDraws) minDifficulty
        categoryFilter =
      .ok (if passesFilters minDifficulty categoryFilter 1 "extension-patterns" then
        Data.ExtensionPatternGenerator.generateSamples extensionDraws else []) ∧
    filterSamples (Data.HTTPPatternGenerator.generateSamples httpDraws) minDifficulty categoryFilter =
      .ok (if passesFilters minDifficulty categoryFilter 1 "http-protocol" then
        Data.HTTPPatternGenerator.generateSamples httpDraws else []) := by
  by_cases early : minDifficulty = 0 ∧ categoryFilter = none
  · obtain ⟨rfl, rfl⟩ := early
    simp only [filterSamples_unfiltered, passesFilters_zero, zero_le_one, decide_True, if_true, and_self]
  · rw [filterSamples, if_neg early, filterSamples, if_neg early]
    exact ⟨filterLoop_patternSamples _ _ _ _, filterLoop_patternSamples _ _ _ _⟩

end Gen
end Neurlang
