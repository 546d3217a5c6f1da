import Neurlang.Gen.TrainingData

namespace Neurlang

/-!
# `parse_example_file`: the header of a `.nl` file

`generate_lib_data` and `generate_examples_data` read the header of each `.nl`
file with `parse_example_file`.  A line that starts with `;` once stripped is a
comment; a comment whose text starts with one of the keys `@name:`,
`@description:`, `@category:`, `@difficulty:`, `@prompt:`, `@param:` and
`@server:` sets the matching field from what follows the first `:`.

No key is a prefix of another, so the `elif` chain tests each key on its own
and the loop has a closed form: the name and the category are the last values
of their keys, the difficulty is the last value `int()` accepts, the prompts are
the non-empty `@prompt:` values in file order, and the file is dropped exactly
when its last `@server:` value, lowered, is `'true'`.  A later `@difficulty:`
that `int()` rejects leaves the one before it.

`str.strip`, `str.lstrip(';')` and `str.split` are modelled on code points, with
the characters `str.isspace` accepts.  `int()` on a string and `str.lower` are
parameters.  The description and the parameters are not kept: nothing reads
the description, and `expand_prompts` does not read the parameters.
-/

namespace Gen

open Data (startswith)

/-! ## Python's string operations -/

/-- `c.isspace()`: the code points Python counts as whitespace. -/
def isSpace (c : Char) : Bool :=
  let n := c.toNat
  (0x09 ≤ n && n ≤ 0x0D) || (0x1C ≤ n && n ≤ 0x20) || n == 0x85 || n == 0xA0 || n == 0x1680 ||
    (0x2000 ≤ n && n ≤ 0x200A) || n == 0x2028 || n == 0x2029 || n == 0x202F || n == 0x205F ||
    n == 0x3000

/-- `text.strip()`. -/
def strip (text : String) : String :=
  ⟨((text.data.dropWhile isSpace).reverse.dropWhile isSpace).reverse⟩

/-- `line.lstrip(';')`. -/
def lstripSemicolons (line : String) : String := ⟨line.data.dropWhile (· == ';')⟩

/-- `text.split(':', 1)[1]`: what follows the first `:`. -/
def afterColon (text : String) : String := ⟨(text.data.dropWhile (· != ':')).drop 1⟩

/-- `content.split('\n')`. -/
def splitLines (content : String) : List String := (content.data.splitOn '\n').map String.mk

/-! ## The parser -/

/-- The variables `parse_example_file` sets in its loop and returns. -/
structure Header where
  name : String
  category : String
  difficulty : Int
  prompts : List String
  isServer : Bool

section Parser

variable (parseInt : String → Option Int) (lower : String → String)

/-- One pass of the loop over the lines of the file: `parseInt` is `int()` on
a string, `none` where it raises, and `lower` is `str.lower`. -/
def parseLine (header : Header) (raw : String) : Header :=
  let line := strip raw
  if !startswith line ";" then header else
  let text := strip (lstripSemicolons line)
  let value := strip (afterColon text)
  if startswith text "@name:" then { header with name := value }
  else if startswith text "@description:" then header
  else if startswith text "@category:" then { header with category := value }
  else if startswith text "@difficulty:" then
    match parseInt value with
    | some difficulty => { header with difficulty := difficulty }
    | none => header
  else if startswith text "@prompt:" then
    if value = "" then header else { header with prompts := header.prompts ++ [value] }
  else if startswith text "@param:" then header
  else if startswith text "@server:" then { header with isServer := lower value == "true" }
  else header

/-- `parse_example_file(filepath)` for a file of stem `stem` whose
`read_text()` returned `content` (`none`: it raised). -/
def parseExampleFile (stem : String) (content : Option String) : Option ExampleSpec :=
  match content with
  | none => none
  | some content =>
      let header := (splitLines content).foldl (parseLine parseInt lower)
        ⟨stem, "uncategorized", 1, [], false⟩
      if header.isServer then none
      else some ⟨header.name, header.category, header.difficulty, header.prompts⟩

end Parser

/-! ## The keys one at a time -/

/-- The keys of the `elif` chain, in its order. -/
def headerKeys : List String :=
  ["@name:", "@description:", "@category:", "@difficulty:", "@prompt:", "@param:", "@server:"]

/-- The value a line gives the key `key`: what follows the first `:` of its
text, stripped, when the line is a comment whose text starts with the key. -/
def keyValue (key raw : String) : Option String :=
  let line := strip raw
  let text := strip (lstripSemicolons line)
  if startswith line ";" && startswith text key then some (strip (afterColon text)) else none

/-- The values of the lines of one key, in file order. -/
def keyValues (key : String) (lines : List String) : List String := lines.filterMap (keyValue key)

theorem headerKeys_exclusive : ∀ a ∈ headerKeys, ∀ b ∈ headerKeys,
    a.data.isPrefixOf b.data = true → a = b := by
  decide

/-- A text starts with at most one key. -/
theorem startswith_key_unique {text a b : String} (keyA : a ∈ headerKeys) (keyB : b ∈ headerKeys)
    (startsA : startswith text a = true) (startsB : startswith text b = true) : a = b := by
  rw [startswith, List.isPrefixOf_iff_prefix] at startsA startsB
  rcases le_total a.data.length b.data.length with shorter | longer
  · exact headerKeys_exclusive a keyA b keyB
      (List.isPrefixOf_iff_prefix.mpr (List.prefix_of_prefix_length_le startsA startsB shorter))
  · exact (headerKeys_exclusive b keyB a keyA
      (List.isPrefixOf_iff_prefix.mpr (List.prefix_of_prefix_length_le startsB startsA longer))).symm

/-- A text starts with no key, or with one key and no other. -/
theorem key_cases (text : String) :
    (∀ key ∈ headerKeys, startswith text key = false) ∨
      ∃ key ∈ headerKeys, startswith text key = true ∧
        ∀ other ∈ headerKeys, other ≠ key → startswith text other = false := by
  by_cases starts : ∃ key ∈ headerKeys, startswith text key = true
  · obtain ⟨key, member, starts⟩ := starts
    refine .inr ⟨key, member, starts, fun other otherMember distinct => ?_⟩
    cases startsOther : startswith text other
    · rfl
    · exact absurd (startswith_key_unique otherMember member startsOther starts) distinct
  · push_neg at starts
    exact .inl fun key member => by simpa using starts key member

theorem getLast?_getD_filterMap_cons {α β : Type} (f : α → Option β) (x : α) (xs : List α)
    (default : β) :
    ((x :: xs).filterMap f).getLast?.getD default = (xs.filterMap f).getLast?.getD ((f x).getD default) := by
  cases found : f x <;> simp [List.filterMap_cons, found, List.getLast?_cons]

section Parser

variable (parseInt : String → Option Int) (lower : String → String)

/-- What one line does to the header, key by key. -/
theorem parseLine_eq (header : Header) (raw : String) :
    parseLine parseInt lower header raw =
      { name := (keyValue "@name:" raw).getD header.name
        category := (keyValue "@category:" raw).getD header.category
        difficulty := ((keyValue "@difficulty:" raw).bind parseInt).getD header.difficulty
        prompts := header.prompts ++ ((keyValue "@prompt:" raw).filter (· != "")).toList
        isServer := ((keyValue "@server:" raw).map (lower · == "true")).getD header.isServer } := by
  obtain ⟨name, category, difficulty, prompts, isServer⟩ := header
  simp only [parseLine, keyValue]
  generalize strip raw = line
  by_cases comment : startswith line ";"
  swap
  · simp [comment]
  generalize strip (lstripSemicolons line) = text
  rcases key_cases text with none | ⟨key, member, starts, others⟩
  · simp only [headerKeys, List.forall_mem_cons, List.not_mem_nil, false_implies, implies_true,
      and_true] at none
    simp [none, comment]
  · simp only [headerKeys, List.mem_cons, List.mem_singleton, List.not_mem_nil, or_false] at member
    rcases member with rfl | rfl | rfl | rfl | rfl | rfl | rfl <;>
      simp only [headerKeys, List.forall_mem_cons, List.not_mem_nil, false_implies, implies_true, and_true,
        ne_eq, not_true_eq_false, String.reduceEq, not_false_eq_true, true_implies] at others <;>
      simp only [starts, others, comment]
    · simp -- `@name:`
    · simp -- `@description:`
    · simp -- `@category:`
    · simp -- `@difficulty:`
      cases parseInt (strip (afterColon text)) <;> rfl
    · by_cases empty : strip (afterColon text) = "" <;> simp [empty, Option.filter] -- `@prompt:`
    · simp -- `@param:`
    · simp -- `@server:`

/-- The loop over any lines, from any header. -/
theorem foldl_parseLine (lines : List String) (header : Header) :
    lines.foldl (parseLine parseInt lower) header =
      { name := (keyValues "@name:" lines).getLast?.getD header.name
        category := (keyValues "@category:" lines).getLast?.getD header.category
        difficulty := ((keyValues "@difficulty:" lines).filterMap parseInt).getLast?.getD header.difficulty
        prompts := header.prompts ++ (keyValues "@prompt:" lines).filter (· != "")
        isServer := ((keyValues "@server:" lines).getLast?.map (lower · == "true")).getD header.isServer } := by
  induction lines generalizing header with
  | nil => simp [keyValues]
  | cons raw rest ih =>
      rw [List.foldl_cons, ih, parseLine_eq]
      simp only [keyValues, List.filterMap_filterMap, ← List.getLast?_map, List.map_filterMap,
        getLast?_getD_filterMap_cons]
      rw [List.filterMap_cons]
      cases keyValue "@prompt:" raw with
      | none => simp
      | some prompt => by_cases empty : prompt = "" <;> simp [Option.filter, List.filter_cons, empty]

/-- `parse_example_file` in closed form: the name and the category are the
last values of their keys, or the defaults; the difficulty is the last value
`int()` accepts, or 1; the prompts are the non-empty `@prompt:` values in file
order; and the file is dropped exactly when its last `@server:` value, lowered,
is `'true'`. -/
theorem parseExampleFile_eq (stem content : String) :
    parseExampleFile parseInt lower stem (some content) =
      if ((keyValues "@server:" (splitLines content)).getLast?.map (lower · == "true")).getD false then
        none
      else some
        { name := (keyValues "@name:" (splitLines content)).getLast?.getD stem
          category := (keyValues "@category:" (splitLines content)).getLast?.getD "uncategorized"
          difficulty := ((keyValues "@difficulty:" (splitLines content)).filterMap parseInt).getLast?.getD 1
          prompts := (keyValues "@prompt:" (splitLines content)).filter (· != "") } := by
  simp only [parseExampleFile, foldl_parseLine, List.nil_append]

/-- A repeated key: the last `@name:` wins, the empty prompt is dropped, and
the last `@server:` keeps the file. -/
example : parseExampleFile (fun _ => none) id "stem"
    (some ";; @name: first\n; @name: second \n; @prompt:\n  ; @prompt: add them\n; @server: true\n; @server: no") =
      some ⟨"second", "uncategorized", 1, ["add them"]⟩ := by
  decide

end Parser

end Gen
end Neurlang
