import Mathlib.Data.Int.ModEq
import Neurlang.Data.Instruction

namespace Neurlang
namespace Data

/-!
# The training loader `ParallelDataset`

The constructor reads the file line by line.  A line on which `json.loads`
raises `JSONDecodeError` is skipped by the `except (json.JSONDecodeError,
KeyError)` clause, and so is an object whose selected text or whose
`instructions` value is falsy.  Every other exception escapes the constructor:
the `ValueError` and `RecursionError` that `json.loads` raises on an integer of
more than 4300 digits and on deep nesting, `.get` on a decoded value that is
not a dict (`AttributeError`), and counting a kept sample under an unhashable
category (`TypeError`).  No type of any field is checked, so an object with a
truthy non-string text or a truthy non-list `instructions` is kept.

`__getitem__` encodes the text to UTF-8, which raises on a `str` with a lone
surrogate, and writes eight label lists of `num_slots` entries,
zero-initialised, from the first `num_slots` instructions.  Only the upper end
of `opcode`, `mode` and the registers is clamped (`min`), `imm_bin` is reduced
`% 256`, and `valid` and `has_imm` are copied unchanged; the conversion to
`torch.long` raises on a label outside `int64`.

The constructor's `self.categories` counts and its printed summary are not
modelled: nothing but the hashing of a category can fail in them.
-/

/-- One sample the constructor keeps: the values it read for the text, the
instructions and the category. -/
structure Sample where
  text : JsonValue
  instructions : JsonValue
  category : JsonValue

/-- What `__getitem__` returns: the token ids, one label list per head, and the
category. -/
structure Item where
  tokens : List Nat
  labels : Head -> List Int
  category : JsonValue

namespace ParallelDataset

open JsonValue

/-! ## The constructor -/

/-- The body of the constructor's `try` for one decoded line: `none` when the
`continue` skips it. -/
def loadItem (item : JsonValue) : Except PyError (Option Sample) := do
  let context ← item.get "context" .null
  let text ← if context.truthy then pure context else item.get "prompt" (.str "")
  let instructions ← item.get "instructions" (.arr [])
  let category ← item.get "category" (.str "unknown")
  if !text.truthy || !instructions.truthy then
    return none
  if !category.hashable then
    throw .typeError
  return some ⟨text, instructions, category⟩

/-- `max_samples and i >= max_samples`: a cap of `None` or `0` is no cap. -/
def capReached (maxSamples : Option Int) (index : Nat) : Bool :=
  match maxSamples with
  | none => false
  | some cap => cap != 0 && decide (cap ≤ index)

/-- The whole `try` for one line: `json.loads`, then the reads of the object. -/
def tryLine (line : JsonLine) : Except PyError (Option Sample) := do
  loadItem (← line.loads)

/-- The constructor's loop from line `index` on: the `except` catches
`JSONDecodeError` and `KeyError` and goes on with the next line. -/
def loadLines (maxSamples : Option Int) : Nat -> List JsonLine -> Except PyError (List Sample)
  | _, [] => .ok []
  | index, line :: rest =>
      if capReached maxSamples index then .ok [] else
        match tryLine line with
        | .error .jsonDecodeError => loadLines maxSamples (index + 1) rest
        | .error .keyError => loadLines maxSamples (index + 1) rest
        | .error error => .error error
        | .ok none => loadLines maxSamples (index + 1) rest
        | .ok (some sample) => (sample :: ·) <$> loadLines maxSamples (index + 1) rest

/-- `ParallelDataset(data_path, max_samples=max_samples).samples`, from what
`json.loads` makes of each line of the file. -/
def init (lines : List JsonLine) (maxSamples : Option Int) : Except PyError (List Sample) :=
  loadLines maxSamples 0 lines

/-! ## `__getitem__` -/

/-- `text.encode('utf-8')` as a list of byte values: only a `str` has
`encode`, and a lone surrogate has no UTF-8 encoding. -/
def encodeText : JsonValue -> Except PyError (List Nat)
  | .str text => .ok (text.toUTF8.toList.map UInt8.toNat)
  | .lone _ => .error .unicodeEncodeError
  | _ => .error .attributeError

/-- The first `maxSeqLen` bytes, padded with the id 256 up to `maxSeqLen`. -/
def padTokens (bytes : List Nat) (maxSeqLen : Nat) : List Nat :=
  let tokens := bytes.take maxSeqLen
  if tokens.length < maxSeqLen then tokens ++ List.replicate (maxSeqLen - tokens.length) 256
  else tokens

/-- The one-character `str` of a code point below `0x110000`. -/
def ofCode (code : Nat) (below : code < 0x110000) : JsonValue :=
  if surrogate : 0xD800 ≤ code ∧ code ≤ 0xDFFF then
    .lone ⟨[code], by simpa using below, ⟨code, List.mem_singleton_self code, surrogate⟩⟩
  else .str (String.singleton (Char.ofNat code))

/-- What `enumerate(value[:count])` iterates over: the first items of a list,
or the first characters of a string as one-character strings.  Other values
cannot be sliced. -/
def sliceItems (value : JsonValue) (count : Nat) : Except PyError (List JsonValue) :=
  match value with
  | .arr items => .ok (items.take count)
  | .str text => .ok ((text.toList.take count).map fun char => .str (String.singleton char))
  | .lone text => .ok ((text.codes.take count).attach.map fun code =>
      ofCode code.1 (text.below code.1 (List.mem_of_mem_take code.2)))
  | _ => .error .typeError

/-- The eight values the loop body writes for one instruction, before the
tensor conversion. -/
def slotValues (instr : JsonValue) : Except PyError (Head -> JsonValue) := do
  let valid ← instr.get Head.valid.key (.int 0)
  let opcode ← (← instr.get Head.opcode.key (.int 0)).pyMin 32
  let mode ← (← instr.get Head.mode.key (.int 0)).pyMin 7
  let rd ← (← instr.get Head.rd.key (.int 0)).pyMin 31
  let rs1 ← (← instr.get Head.rs1.key (.int 0)).pyMin 31
  let rs2 ← (← instr.get Head.rs2.key (.int 0)).pyMin 31
  let hasImm ← instr.get Head.hasImm.key (.int 0)
  let imm ← instr.get Head.immBin.key (.int 0)
  let immBin ← imm.pyMod 256
  return fun
    | .valid => valid
    | .opcode => opcode
    | .mode => mode
    | .rd => rd
    | .rs1 => rs1
    | .rs2 => rs2
    | .hasImm => hasImm
    | .immBin => immBin

/-- The `for i, instr in enumerate(instructions)` loop from slot `index` on,
with its `if i >= num_slots: break`. -/
def fillSlots (numSlots : Nat) : Nat -> List JsonValue -> (Head -> List JsonValue) ->
    Except PyError (Head -> List JsonValue)
  | _, [], targets => .ok targets
  | index, instr :: rest, targets =>
      if numSlots ≤ index then .ok targets else do
        let values ← slotValues instr
        fillSlots numSlots (index + 1) rest fun head => (targets head).set index (values head)

/-- `ParallelDataset.__getitem__` on one sample. -/
def getItem (maxSeqLen numSlots : Nat) (sample : Sample) : Except PyError Item := do
  let bytes ← encodeText sample.text
  let instructions ← sliceItems sample.instructions numSlots
  let targets ← fillSlots numSlots 0 instructions fun _ => List.replicate numSlots (.int 0)
  let labels ← Head.traverse fun head => (targets head).mapM toLong
  return ⟨padTokens bytes maxSeqLen, labels, sample.category⟩

/-! ## Instructions with integer fields -/

/-- The integer a decoded instruction holds for a field; `0`, the loop's
default, when the key is missing. -/
def fieldInt (instr : JsonValue) (head : Head) : Int :=
  match instr with
  | .obj fields =>
      match lookup fields head.key with
      | some (.int value) => value
      | _ => 0
  | _ => 0

/-- An instruction object whose eight label fields are integers where they are
present. -/
def intFields : JsonValue -> Bool
  | .obj fields =>
      Head.all.all fun head =>
        match lookup fields head.key with
        | none => true
        | some (.int _) => true
        | some _ => false
  | _ => false

/-- The label the loop body stores for an integer field value: the one-sided
clamps and the `% 256` of the immediate. -/
def encodeField : Head -> Int -> Int
  | .valid, value => value
  | .opcode, value => min value 32
  | .mode, value => min value 7
  | .rd, value => min value 31
  | .rs1, value => min value 31
  | .rs2, value => min value 31
  | .hasImm, value => value
  | .immBin, value => value % 256

/-- Every label `__getitem__` stores for the instruction fits in an `int64`:
`valid` and `has_imm` as they are, the clamped fields from `-2^63` on, and the
immediate `% 256` always. -/
def longLabels (instr : JsonValue) : Bool :=
  Head.all.all fun head => decide (InLong (encodeField head (fieldInt instr head)))

theorem longLabels_iff {instr : JsonValue} :
    longLabels instr = true ↔ ∀ head, InLong (encodeField head (fieldInt instr head)) := by
  simp [longLabels, List.all_eq_true, Head.mem_all]

theorem inLong_zero : InLong 0 := by
  unfold InLong
  omega

/-- A field value that fits in an `int64` is stored as a label that does. -/
theorem inLong_encodeField {value : Int} (fits : InLong value) (head : Head) :
    InLong (encodeField head value) := by
  unfold InLong at fits ⊢
  cases head <;> simp only [encodeField] <;> omega

theorem inLong_encodeField_immBin (value : Int) : InLong (encodeField .immBin value) := by
  simp only [InLong, encodeField]
  omega

theorem get_of_intFields {instr : JsonValue} (ints : intFields instr = true) (head : Head) :
    instr.get head.key (.int 0) = .ok (.int (fieldInt instr head)) := by
  cases instr with
  | obj fields =>
      simp only [intFields, List.all_eq_true] at ints
      have present := ints head (Head.mem_all head)
      simp only [get_obj, fieldInt]
      split at present <;> simp_all
  | _ => simp [intFields] at ints

theorem slotValues_of_intFields {instr : JsonValue} (ints : intFields instr = true) :
    slotValues instr = .ok fun head => .int (encodeField head (fieldInt instr head)) := by
  simp only [slotValues, get_of_intFields ints, ok_bind, pyMin_int, pyMod_int]
  show Except.ok _ = _
  congr 1
  funext head
  cases head <;> rfl

theorem set_length_append_replicate {α : Type} (written : List α) (count : Nat) (fill value : α) :
    (written ++ List.replicate (count + 1) fill).set written.length value =
      written ++ value :: List.replicate count fill := by
  rw [List.set_append_right _ _ (Nat.le_refl _), Nat.sub_self, List.replicate_succ,
    List.set_cons_zero]

theorem fillSlots_intFields (numSlots : Nat) (items : List JsonValue)
    (ints : ∀ item ∈ items, intFields item = true) (index : Nat)
    (written : Head -> List JsonValue) (lengths : forall head, (written head).length = index)
    (fits : index + items.length ≤ numSlots) :
    fillSlots numSlots index items
        (fun head => written head ++ List.replicate (numSlots - index) (.int 0)) =
      .ok fun head => written head ++
        items.map (fun item => .int (encodeField head (fieldInt item head))) ++
        List.replicate (numSlots - index - items.length) (.int 0) := by
  induction items generalizing index written with
  | nil => simp [fillSlots]
  | cons item rest ih =>
      simp only [List.length_cons] at fits
      have room : numSlots - index = (numSlots - (index + 1)) + 1 := by omega
      simp only [fillSlots, if_neg (show ¬ numSlots ≤ index by omega),
        slotValues_of_intFields (ints item (List.mem_cons_self _ _)), ok_bind]
      have targets : (fun head => (written head ++ List.replicate (numSlots - index)
          (JsonValue.int 0)).set index (.int (encodeField head (fieldInt item head)))) =
          fun head => (written head ++ [.int (encodeField head (fieldInt item head))]) ++
            List.replicate (numSlots - (index + 1)) (JsonValue.int 0) := by
        funext head
        rw [room, ← lengths head, set_length_append_replicate, List.append_assoc,
          List.singleton_append]
      rw [targets, ih (fun other hmem => ints other (List.mem_cons_of_mem _ hmem)) (index + 1)
        _ (by simp [lengths]) (by omega)]
      congr 1
      funext head
      simp only [List.map_cons, List.length_cons, List.append_assoc, List.singleton_append,
        List.cons_append, List.nil_append, Nat.sub_sub, Nat.add_assoc, Nat.add_comm 1]

theorem mapM_toLong_int {values : List Int} (fits : ∀ value ∈ values, InLong value) :
    (values.map JsonValue.int).mapM toLong = .ok values := by
  induction values with
  | nil => rfl
  | cons value rest ih =>
      rw [List.forall_mem_cons] at fits
      rw [List.map_cons, List.mapM_cons, toLong_int fits.1, ih fits.2]
      rfl

/-- `__getitem__` on a string text and a list whose first `num_slots` entries
are objects with integer fields: the labels are what `torch.tensor` makes of the
field encodings of those instructions, followed by zeros up to `num_slots`. -/
theorem getItem_intFields_labels (maxSeqLen numSlots : Nat) (text : String) (items : List JsonValue)
    (category : JsonValue) (ints : ∀ item ∈ items.take numSlots, intFields item = true) :
    getItem maxSeqLen numSlots ⟨.str text, .arr items, category⟩ =
      Head.traverse (fun head => List.mapM toLong (((items.take numSlots).map
          (fun item => encodeField head (fieldInt item head)) ++
          List.replicate (numSlots - (items.take numSlots).length) 0).map JsonValue.int)) >>=
        fun labels => .ok ⟨padTokens (text.toUTF8.toList.map UInt8.toNat) maxSeqLen, labels, category⟩ := by
  have filled := fillSlots_intFields numSlots (items.take numSlots) ints 0 (fun _ => [])
    (fun _ => rfl) (by simp)
  simp only [List.nil_append, Nat.sub_zero, Nat.zero_add] at filled
  simp only [getItem, encodeText, sliceItems, ok_bind, filled, List.map_append, List.map_replicate, List.map_map,
    Function.comp_def]
  rfl

/-- `__getitem__` on a string text and a list whose first `num_slots` entries
are objects with integer fields, stored as labels that fit in an `int64`: the
labels are the field encodings of those instructions, followed by zeros up to
`num_slots`. -/
theorem getItem_intFields (maxSeqLen numSlots : Nat) (text : String) (items : List JsonValue)
    (category : JsonValue) (ints : ∀ item ∈ items.take numSlots, intFields item = true)
    (fits : ∀ item ∈ items.take numSlots, longLabels item = true) :
    getItem maxSeqLen numSlots ⟨.str text, .arr items, category⟩ =
      .ok ⟨padTokens (text.toUTF8.toList.map UInt8.toNat) maxSeqLen,
        fun head => (items.take numSlots).map (fun item => encodeField head (fieldInt item head)) ++
          List.replicate (numSlots - (items.take numSlots).length) 0,
        category⟩ := by
  have labels : ∀ head, ∀ label ∈ (items.take numSlots).map (fun item => encodeField head (fieldInt item head)) ++
      List.replicate (numSlots - (items.take numSlots).length) 0, InLong label := by
    intro head label member
    rcases List.mem_append.mp member with encoded | padded
    · obtain ⟨item, inside, rfl⟩ := List.mem_map.mp encoded
      exact longLabels_iff.mp (fits item inside) head
    · rw [List.eq_of_mem_replicate padded]
      exact inLong_zero
  rw [getItem_intFields_labels maxSeqLen numSlots text items category ints]
  simp only [fun head => mapM_toLong_int (labels head), Head.traverse_ok, ok_bind]


/-! ## Records from `to_dict` and the padders -/

theorem lookup_toJson (record : InstructionRecord) (head : Head) :
    lookup (Head.all.map fun other => (other.key, .int (record.field other))) head.key =
      some (.int (record.field head)) := by
  cases head <;> simp [lookup, Head.all, Head.key]

theorem intFields_toJson (record : InstructionRecord) : intFields record.toJson = true := by
  simp [intFields, InstructionRecord.toJson, lookup_toJson]

theorem fieldInt_toJson (record : InstructionRecord) (head : Head) :
    fieldInt record.toJson head = record.field head := by
  simp [fieldInt, InstructionRecord.toJson, lookup_toJson]

theorem intFields_take_toJson (records : List InstructionRecord) (count : Nat) :
    ∀ item ∈ (records.map InstructionRecord.toJson).take count, intFields item = true := fun item member => by
  obtain ⟨record, -, rfl⟩ := List.mem_map.mp (List.mem_of_mem_take member)
  exact intFields_toJson record

/-- `__getitem__` on a list of serialised records, each of the first
`num_slots` stored as labels that fit in an `int64`: each gives the encodings
of its fields, and the remaining slots stay zero. -/
theorem getItem_records (maxSeqLen numSlots : Nat) (text : String)
    (records : List InstructionRecord) (category : JsonValue)
    (fits : ∀ record ∈ records.take numSlots, ∀ head, InLong (encodeField head (record.field head))) :
    getItem maxSeqLen numSlots ⟨.str text, .arr (records.map InstructionRecord.toJson), category⟩ =
      .ok ⟨padTokens (text.toUTF8.toList.map UInt8.toNat) maxSeqLen,
        fun head => (records.take numSlots).map (fun record => encodeField head (record.field head)) ++
          List.replicate (numSlots - (records.take numSlots).length) 0,
        category⟩ := by
  rw [getItem_intFields _ _ _ _ _ (intFields_take_toJson records numSlots)]
  · simp only [← List.map_take, List.map_map, List.length_map, Function.comp_def,
      fieldInt_toJson]
  · intro item member
    rw [← List.map_take] at member
    obtain ⟨record, inside, rfl⟩ := List.mem_map.mp member
    exact longLabels_iff.mpr fun head => by
      rw [fieldInt_toJson]
      exact fits record inside head

theorem encodeField_padding (head : Head) : encodeField head (InstructionRecord.padding.field head) = 0 := by
  cases head <;> rfl

end ParallelDataset

/-- The labels the padding contract gives the slot of an instruction: `valid`
1, the clamped `opcode`, `mode` and registers, `has_imm`, and the immediate
`% 256` when `has_imm` is set, else 0. -/
def Instruction.slotLabels (instr : Instruction) : Head -> Int
  | .valid => 1
  | .opcode => min instr.opcode 32
  | .mode => min instr.mode 7
  | .rd => min instr.rd 31
  | .rs1 => min instr.rs1 31
  | .rs2 => min instr.rs2 31
  | .hasImm => instr.hasImm
  | .immBin => if instr.hasImm = 0 then 0 else instr.imm % 256

/-- Every field of the instruction fits in an `int64`. -/
def Instruction.FitsLong (instr : Instruction) : Prop :=
  ∀ value ∈ [instr.opcode, instr.mode, instr.rd, instr.rs1, instr.rs2, instr.hasImm, instr.imm], InLong value

theorem Instruction.inLong_toDict {instr : Instruction} (fit : instr.FitsLong) (head : Head) :
    InLong (instr.toDict.field head) := by
  simp only [Instruction.FitsLong, List.forall_mem_cons, List.not_mem_nil, false_implies, implies_true,
    and_true] at fit
  obtain ⟨opcode, mode, rd, rs1, rs2, hasImm, imm⟩ := fit
  cases head <;> simp only [Instruction.toDict] <;> try assumption
  · unfold InLong
    omega
  · split
    · exact imm
    · exact ParallelDataset.inLong_zero

namespace ParallelDataset

open JsonValue

theorem encodeField_toDict (instr : Instruction) (head : Head) :
    encodeField head (instr.toDict.field head) = instr.slotLabels head := by
  cases head <;> simp only [encodeField, Instruction.toDict, Instruction.slotLabels]
  by_cases zero : instr.hasImm = 0 <;> simp [zero]

theorem toDict_fits {instructions : List Instruction} (fit : ∀ instr ∈ instructions, instr.FitsLong) :
    ∀ record ∈ instructions.map Instruction.toDict, ∀ head, InLong (encodeField head (record.field head)) := by
  intro record member head
  obtain ⟨instr, inside, rfl⟩ := List.mem_map.mp member
  exact inLong_encodeField (Instruction.inLong_toDict (fit instr inside) head) head

theorem padRecords_fits {instructions : List Instruction} (fit : ∀ instr ∈ instructions, instr.FitsLong) :
    ∀ record ∈ padRecords 64 instructions, ∀ head, InLong (encodeField head (record.field head)) := by
  intro record member head
  rw [padRecords_eq] at member
  rcases List.mem_append.mp member with kept | padded
  · exact toDict_fits fit record (List.mem_of_mem_take kept) head
  · rw [List.eq_of_mem_replicate padded, encodeField_padding]
    exact inLong_zero

/-- The label lists `__getitem__` writes for a program whose fields fit in an
`int64`, padded or not, from its first 64 instructions. -/
theorem getItem_padRecords (maxSeqLen : Nat) (text : String) (instructions : List Instruction)
    (category : JsonValue) (fit : ∀ instr ∈ instructions, instr.FitsLong) :
    getItem maxSeqLen numSlots
        ⟨.str text, .arr ((padRecords 64 instructions).map InstructionRecord.toJson), category⟩ =
      getItem maxSeqLen numSlots
        ⟨.str text, .arr ((instructions.map Instruction.toDict).map InstructionRecord.toJson),
          category⟩ := by
  have full : (padRecords 64 instructions).take 64 = padRecords 64 instructions :=
    List.take_of_length_le (Nat.le_of_eq (length_padRecords 64 instructions))
  rw [getItem_records _ _ _ _ _ fun record member => padRecords_fits fit record (List.mem_of_mem_take member),
    getItem_records _ _ _ _ _ fun record member => toDict_fits fit record (List.mem_of_mem_take member)]
  simp only [numSlots]
  simp only [full, length_padRecords, Nat.sub_self, List.replicate_zero, List.append_nil]
  simp only [padRecords_eq, List.map_append, List.map_replicate, encodeField_padding,
    List.length_take, List.length_map]
  congr 3
  funext head
  congr 2
  omega


/-- The four padders return exactly 64 records, and, for instructions whose
fields fit in an `int64`, `__getitem__` turns each padded list, and the
unpadded list of `to_dict` records, into the same label lists: slot `i` holds
the labels of instruction `i` while there is one among the first 64, and zeros
after. -/
theorem padders_match_getItem (instructions : List Instruction) (maxSeqLen : Nat) (text : String)
    (category : JsonValue) (fit : ∀ instr ∈ instructions, instr.FitsLong) :
    (padInstructions instructions 64).length = 64 ∧
    (ExtensionPatternGenerator.padInstructions instructions 64).length = 64 ∧
    (HTTPPatternGenerator.padInstructions instructions 64).length = 64 ∧
    (generateDiverseSamples.instrDicts instructions).length = 64 ∧
    ∃ labels : Head -> List Int,
      (∀ records ∈ [padInstructions instructions 64,
          ExtensionPatternGenerator.padInstructions instructions 64,
          HTTPPatternGenerator.padInstructions instructions 64,
          generateDiverseSamples.instrDicts instructions,
          instructions.map Instruction.toDict],
        ∃ item, getItem maxSeqLen numSlots
            ⟨.str text, .arr (records.map InstructionRecord.toJson), category⟩ = .ok item ∧
          item.labels = labels) ∧
      ∀ head, (labels head).length = 64 ∧
        ∀ slot < 64, (labels head)[slot]? =
          some ((instructions[slot]?.map fun instr => instr.slotLabels head).getD 0) := by
  let labels : Head -> List Int := fun head =>
    (instructions.take 64).map (fun instr => instr.slotLabels head) ++
      List.replicate (64 - min 64 instructions.length) 0
  have unpadded : getItem maxSeqLen numSlots ⟨.str text,
      .arr ((instructions.map Instruction.toDict).map InstructionRecord.toJson), category⟩ =
      .ok ⟨padTokens (text.toUTF8.toList.map UInt8.toNat) maxSeqLen, labels, category⟩ := by
    rw [getItem_records _ _ _ _ _ fun record member => toDict_fits fit record (List.mem_of_mem_take member)]
    simp only [numSlots, ← List.map_take, List.map_map, Function.comp_def, encodeField_toDict,
      List.length_map, List.length_take, labels]
  refine ⟨length_padRecords 64 instructions, length_padRecords 64 instructions,
    length_padRecords 64 instructions, length_padRecords 64 instructions, labels, ?_, ?_⟩
  · intro records member
    simp only [List.mem_cons, List.mem_singleton, List.not_mem_nil, or_false] at member
    refine ⟨⟨padTokens (text.toUTF8.toList.map UInt8.toNat) maxSeqLen, labels, category⟩, ?_, rfl⟩
    rcases member with same | same | same | same | same <;> subst same <;>
      first
      | exact unpadded
      | exact (getItem_padRecords maxSeqLen text instructions category fit).trans unpadded
  · intro head
    refine ⟨by simp [labels], fun slot below => ?_⟩
    by_cases inside : slot < instructions.length
    · rw [List.getElem?_append_left (by simp; omega)]
      simp [List.getElem?_take, below, inside]
    · rw [List.getElem?_append_right (by simp; omega)]
      simp only [List.getElem?_replicate, List.length_map, List.length_take]
      rw [if_pos (by omega), List.getElem?_eq_none (by omega)]
      rfl

/-- A one-instruction program with an immediate: every padder's list gives the
labels of its slot 0 and zeros after it. -/
theorem padders_match_getItem_one :
    (∀ instr ∈ [(⟨0, 1, 2, 3, 0, 1, 42⟩ : Instruction)], instr.FitsLong) ∧
    (padInstructions [⟨0, 1, 2, 3, 0, 1, 42⟩] 64).length = 64 ∧
    (ExtensionPatternGenerator.padInstructions [⟨0, 1, 2, 3, 0, 1, 42⟩] 64).length = 64 ∧
    (HTTPPatternGenerator.padInstructions [⟨0, 1, 2, 3, 0, 1, 42⟩] 64).length = 64 ∧
    (generateDiverseSamples.instrDicts [⟨0, 1, 2, 3, 0, 1, 42⟩]).length = 64 ∧
    ∃ labels : Head -> List Int,
      (∀ records ∈ [padInstructions [⟨0, 1, 2, 3, 0, 1, 42⟩] 64,
          ExtensionPatternGenerator.padInstructions [⟨0, 1, 2, 3, 0, 1, 42⟩] 64,
          HTTPPatternGenerator.padInstructions [⟨0, 1, 2, 3, 0, 1, 42⟩] 64,
          generateDiverseSamples.instrDicts [⟨0, 1, 2, 3, 0, 1, 42⟩],
          [⟨0, 1, 2, 3, 0, 1, 42⟩].map Instruction.toDict],
        ∃ item, getItem 256 numSlots
            ⟨.str "add", .arr (records.map InstructionRecord.toJson), .str "unknown"⟩ = .ok item ∧
          item.labels = labels) ∧
      ∀ head, (labels head).length = 64 ∧
        ∀ slot < 64, (labels head)[slot]? =
          some (([(⟨0, 1, 2, 3, 0, 1, 42⟩ : Instruction)][slot]?.map fun instr => instr.slotLabels head).getD 0) := by
  have fit : ∀ instr ∈ [(⟨0, 1, 2, 3, 0, 1, 42⟩ : Instruction)], instr.FitsLong := by
    simp only [List.mem_singleton, forall_eq, Instruction.FitsLong]
    decide
  exact ⟨fit, padders_match_getItem _ 256 "add" (.str "unknown") fit⟩

/-- An instruction whose `has_imm` is `2^63`, one past `int64`: `__getitem__`
raises on its padded list instead of returning the labels. -/
theorem getItem_padded_overflow :
    getItem 256 numSlots ⟨.str "", .arr ((padInstructions [⟨0, 0, 0, 0, 0, 2 ^ 63, 0⟩] 64).map
      InstructionRecord.toJson), .str "unknown"⟩ = .error .runtimeError := by
  rw [getItem_intFields_labels _ _ _ _ _ (intFields_take_toJson _ _)]
  simp only [← List.map_take, List.map_map, List.length_map, Function.comp_def, fieldInt_toJson]
  rw [padInstructions, padRecords_eq]
  rfl

/-! ## Class ranges of the labels -/

/-- A label inside its head's class range `[0, numClasses)`. -/
def InClassRange (head : Head) (label : Int) : Prop :=
  0 ≤ label ∧ label < head.numClasses

/-- The field values whose label lands in the class range: `valid` and
`has_imm` must already be 0 or 1, the clamped fields must be non-negative, and
every immediate is reduced into range. -/
def ClampsIntoRange : Head -> Int -> Prop
  | .valid, value => value = 0 ∨ value = 1
  | .hasImm, value => value = 0 ∨ value = 1
  | .immBin, _ => True
  | _, value => 0 ≤ value

theorem encodeField_inClassRange_iff (head : Head) (value : Int) :
    InClassRange head (encodeField head value) ↔ ClampsIntoRange head value := by
  cases head <;> simp [InClassRange, ClampsIntoRange, encodeField, Head.numClasses] <;> omega

theorem inClassRange_zero (head : Head) : InClassRange head 0 := by
  cases head <;> simp [InClassRange, Head.numClasses]

theorem inLong_of_inClassRange {head : Head} {label : Int} (inRange : InClassRange head label) :
    InLong label := by
  have classes : (head.numClasses : Int) ≤ 256 := by cases head <;> decide
  unfold InClassRange at inRange
  unfold InLong
  omega

/-- Fields the clamps bring into their heads' ranges are stored as labels that
fit in an `int64`. -/
theorem longLabels_of_clamps {instr : JsonValue} (clamps : ∀ head, ClampsIntoRange head (fieldInt instr head)) :
    longLabels instr = true :=
  longLabels_iff.mpr fun head => inLong_of_inClassRange ((encodeField_inClassRange_iff head _).mpr (clamps head))

/-- For records of integers of any sign that fit in an `int64`, every label
`__getitem__` emits is a legal class index exactly when each of the first
`num_slots` records has `valid` and `has_imm` in `{0, 1}` and non-negative
`opcode`, `mode` and registers: the upper clamps are the only ones. -/
theorem getItem_labels_inClassRange_iff (maxSeqLen : Nat) (text : String)
    (records : List InstructionRecord) (category : JsonValue)
    (fits : ∀ record ∈ records.take numSlots, ∀ head, InLong (record.field head)) :
    ∃ item, getItem maxSeqLen numSlots
        ⟨.str text, .arr (records.map InstructionRecord.toJson), category⟩ = .ok item ∧
      ((∀ head, ∀ label ∈ item.labels head, InClassRange head label) ↔
        ∀ record ∈ records.take numSlots, ∀ head, ClampsIntoRange head (record.field head)) := by
  refine ⟨_, getItem_records maxSeqLen numSlots text records category
    fun record member head => inLong_encodeField (fits record member head) head, ?_⟩
  constructor
  · intro inRange record member head
    exact (encodeField_inClassRange_iff head _).mp
      (inRange head _ (List.mem_append_left _ (List.mem_map_of_mem _ member)))
  · intro clamps head label member
    rcases List.mem_append.mp member with encoded | padded
    · obtain ⟨record, belongs, rfl⟩ := List.mem_map.mp encoded
      exact (encodeField_inClassRange_iff head _).mpr (clamps record belongs head)
    · rw [(List.mem_replicate.mp padded).2]
      exact inClassRange_zero head

/-- The record of the failing input: `valid` 1, `opcode` `-1`, every other
field 0. -/
def negativeOpcode : InstructionRecord := ⟨fun | .valid => 1 | .opcode => -1 | _ => 0⟩

theorem getItem_labels_negative_opcode :
    (∀ record ∈ [negativeOpcode].take numSlots, ∀ head, InLong (record.field head)) ∧
      ∃ item, getItem 256 numSlots
          ⟨.str "add", .arr ([negativeOpcode].map InstructionRecord.toJson), .str "unknown"⟩ = .ok item ∧
        ((∀ head, ∀ label ∈ item.labels head, InClassRange head label) ↔
          ∀ record ∈ [negativeOpcode].take numSlots, ∀ head, ClampsIntoRange head (record.field head)) := by
  have fits : ∀ record ∈ [negativeOpcode].take numSlots, ∀ head, InLong (record.field head) := by
    intro record member head
    obtain rfl : record = negativeOpcode := by simpa [numSlots] using member
    cases head <;> (unfold InLong; decide)
  exact ⟨fits, getItem_labels_inClassRange_iff 256 "add" [negativeOpcode] (.str "unknown") fits⟩

/-! ## The immediate from training to rendering -/

/-- The immediate `v`, of any size, of an instruction with `has_imm = 1`
whose other fields fit in an `int64` is stored as the bin `v % 256`, and
`decode_instruction` renders that bin as `v % 256 - 128`, which is never
congruent to `v` modulo 256. -/
theorem immediate_render_shifted (opcode mode rd rs1 rs2 imm : Int) (maxSeqLen : Nat)
    (text : String) (category : JsonValue) (opcodeIndex modeIndex rdIndex rs1Index rs2Index : Nat)
    (fits : ∀ value ∈ [opcode, mode, rd, rs1, rs2], InLong value) :
    ∃ item, getItem maxSeqLen numSlots ⟨.str text,
        .arr [(Instruction.toDict ⟨opcode, mode, rd, rs1, rs2, 1, imm⟩).toJson], category⟩ =
        .ok item ∧
      (item.labels .immBin)[0]? = some (imm % 256) ∧
      (∃ lead, decodeInstruction 1 opcodeIndex modeIndex rdIndex rs1Index rs2Index 1
          (imm % 256).toNat = some (lead ++ toString (imm % 256 - 128))) ∧
      ¬ Int.ModEq 256 (imm % 256 - 128) imm := by
  have bin : decodeImmediate (imm % 256).toNat = imm % 256 - 128 := by
    rw [decodeImmediate, Int.toNat_of_nonneg (Int.emod_nonneg imm (by decide))]
  have stored : ∀ record ∈ [Instruction.toDict ⟨opcode, mode, rd, rs1, rs2, 1, imm⟩].take numSlots,
      ∀ head, InLong (encodeField head (record.field head)) := by
    intro record member head
    obtain rfl : record = Instruction.toDict ⟨opcode, mode, rd, rs1, rs2, 1, imm⟩ := by
      simpa [numSlots] using member
    simp only [List.forall_mem_cons, List.not_mem_nil, false_implies, implies_true, and_true] at fits
    have one : InLong 1 := by
      unfold InLong
      omega
    cases head
    case immBin => exact inLong_encodeField_immBin _
    all_goals exact inLong_encodeField (by simp only [Instruction.toDict]; tauto) _
  refine ⟨_, getItem_records maxSeqLen numSlots text
    [Instruction.toDict ⟨opcode, mode, rd, rs1, rs2, 1, imm⟩] category stored, ?_, ?_, ?_⟩
  · simp [encodeField, Instruction.toDict, numSlots]
  · rw [← bin]
    exact decodeInstruction_of_hasImm _ _ _ _ _ _ one_ne_zero one_ne_zero
  · simp only [Int.ModEq]
    omega

/-- The failing input: the immediate 0 is rendered as `-128`. -/
theorem immediate_render_shifted_zero :
    (∀ value ∈ [(0 : Int), 0, 0, 0, 0], InLong value) ∧
      ∃ item, getItem 256 numSlots ⟨.str "add",
          .arr [(Instruction.toDict ⟨0, 0, 0, 0, 0, 1, 0⟩).toJson], .str "unknown"⟩ = .ok item ∧
        (item.labels .immBin)[0]? = some (0 % 256) ∧
        (∃ lead, decodeInstruction 1 0 0 0 0 0 1 (0 % 256 : Int).toNat = some (lead ++ toString ((0 : Int) % 256 - 128))) ∧
        ¬ Int.ModEq 256 ((0 : Int) % 256 - 128) 0 := by
  have fits : ∀ value ∈ [(0 : Int), 0, 0, 0, 0], InLong value := by
    simp only [List.mem_cons, List.not_mem_nil, or_false, or_self, forall_eq]
    exact inLong_zero
  exact ⟨fits, immediate_render_shifted 0 0 0 0 0 0 256 "add" (.str "unknown") 0 0 0 0 0 fits⟩


/-! ## What the constructor keeps -/

/-- The text the constructor selects from an object: `context` unless it is
falsy, else `prompt` with the default `''`. -/
def selectedText (fields : List (String × JsonValue)) : JsonValue :=
  let context := (lookup fields "context").getD .null
  if context.truthy then context else (lookup fields "prompt").getD (.str "")

/-- The sample the two truth tests keep from an object, if any. -/
def selectSample (fields : List (String × JsonValue)) : Option Sample :=
  let instructions := (lookup fields "instructions").getD (.arr [])
  if (selectedText fields).truthy && instructions.truthy then
    some ⟨selectedText fields, instructions, (lookup fields "category").getD (.str "unknown")⟩
  else none

/-- The sample kept from a line. -/
def keptSample : JsonLine -> Option Sample
  | .value (.obj fields) => selectSample fields
  | _ => none

/-- A line whose `try` body raises nothing the `except` misses: a line on
which `json.loads` raises `JSONDecodeError`, or an object whose kept sample, if
any, has a hashable category. -/
def loadsQuietly : JsonLine -> Bool
  | .invalid => true
  | .value (.obj fields) =>
      match selectSample fields with
      | none => true
      | some sample => sample.category.hashable
  | _ => false

theorem loadItem_obj (fields : List (String × JsonValue))
    (quiet : loadsQuietly (.value (.obj fields)) = true) :
    loadItem (.obj fields) = .ok (selectSample fields) := by
  simp only [loadsQuietly, selectSample, selectedText] at quiet
  simp only [loadItem, get_obj, ok_bind, selectSample, selectedText]
  generalize (lookup fields "context").getD null = context at *
  generalize (lookup fields "prompt").getD (str "") = prompt at *
  generalize (lookup fields "instructions").getD (arr []) = instructions at *
  generalize (lookup fields "category").getD (str "unknown") = category at *
  cases contextTruthy : context.truthy <;> cases promptTruthy : prompt.truthy <;>
    cases listTruthy : instructions.truthy <;> cases hashed : category.hashable <;>
    simp_all <;> rfl

/-- The lines the loop reads before its `break`. -/
def readLines {α : Type} (maxSamples : Option Int) : Nat -> List α -> List α
  | _, [] => []
  | index, line :: rest =>
      if capReached maxSamples index then [] else line :: readLines maxSamples (index + 1) rest

theorem loadLines_eq (maxSamples : Option Int) (lines : List JsonLine) :
    ∀ index, (∀ line ∈ readLines maxSamples index lines, loadsQuietly line = true) ->
      loadLines maxSamples index lines =
        .ok ((readLines maxSamples index lines).filterMap keptSample) := by
  induction lines with
  | nil => intro index _; rfl
  | cons line rest ih =>
      intro index quiet
      by_cases capped : capReached maxSamples index
      · simp [loadLines, readLines, capped]
      · simp only [readLines, capped, Bool.false_eq_true, if_false, List.forall_mem_cons]
          at quiet ⊢
        have next := ih (index + 1) quiet.2
        cases line with
        | invalid => simpa [loadLines, tryLine, JsonLine.loads, capped] using next
        | value item =>
            cases item with
            | obj fields =>
                simp only [loadLines, tryLine, JsonLine.loads, ok_bind, capped, if_false,
                  loadItem_obj fields quiet.1]
                cases selected : selectSample fields <;>
                  simp [List.filterMap_cons, keptSample, selected, next]
            | _ => simp [loadsQuietly] at quiet
        | _ => simp [loadsQuietly] at quiet

example : init [.value (.int 5)] none = .error .attributeError := rfl

example : init [.invalid, .overlongInt] none = .error .valueError := rfl

/-- The lines inside the cap: all of them for `None` or `0`, else the first
`max_samples`, none at all for a negative cap. -/
def withinCap {α : Type} (maxSamples : Option Int) (lines : List α) : List α :=
  match maxSamples with
  | none => lines
  | some cap => if cap = 0 then lines else lines.take cap.toNat

theorem readLines_eq_take {α : Type} (cap : Int) (nonzero : cap ≠ 0) (lines : List α) :
    ∀ index, readLines (some cap) index lines = lines.take (cap - index).toNat := by
  induction lines with
  | nil => intro index; simp [readLines]
  | cons line rest ih =>
      intro index
      by_cases reached : cap ≤ index
      · have exhausted : (cap - index).toNat = 0 := by omega
        simp [readLines, capReached, nonzero, reached, exhausted]
      · have count : (cap - index).toNat = (cap - (index + 1 : Nat)).toNat + 1 := by omega
        simp [readLines, capReached, nonzero, reached, ih, count]

theorem readLines_zero {α : Type} (maxSamples : Option Int) (lines : List α) :
    readLines maxSamples 0 lines = withinCap maxSamples lines := by
  have uncapped : ∀ index, readLines (α := α) none index lines = lines ∧
      readLines (some 0) index lines = lines := by
    induction lines with
    | nil => simp [readLines]
    | cons line rest ih => simp [readLines, capReached, ih]
  rcases maxSamples with _ | cap
  · exact (uncapped 0).1
  · by_cases zero : cap = 0
    · subst zero
      exact (uncapped 0).2
    · simp [withinCap, zero, readLines_eq_take cap zero]

end ParallelDataset

end Data
end Neurlang
