import Neurlang.Data.Binary
import Neurlang.Train.Loader

namespace Neurlang

/-!
# The training file, from `generate_training_data.py` to `train.py`

`generate_lib_data` and `generate_examples_data` assemble each `.nl` file,
read the program back with `decode_binary`, pad it with `pad_instructions`, and
append one dict per drawn prompt: the prompt as `context`, the 64 padded
records as `instructions`, and the file's name, category and difficulty under
`metadata`.  `main` shuffles the samples of all generators and writes one
`json.dumps` per line; `ParallelDataset` reads the lines back with
`json.loads`.  A line here is the value `json.loads` returns for it: the
generators write no other.

Every such line is read back as a sample exactly when its prompt is not empty,
with the prompt as text and the records as instructions.  The trainer looks
for `category` at the top level of the line, where the generators never put
it, so every sample it keeps has the category `'unknown'`.  The records of a
decoded program have `valid` and `has_imm` in `{0, 1}` and non-negative
opcodes, modes and registers, so the clamps of `__getitem__` bring every label
into its head's range: the samples meet the hypothesis under which one epoch of
`main` runs to the end.
-/

namespace Data

/-- The dict `generate_lib_data` (`source = 'lib'`) and
`generate_examples_data` (`source = 'examples'`) append for one drawn prompt of
an assembled file. -/
def fileSample (source prompt name category : String) (difficulty : Int) (instructions : List Instruction) :
    JsonValue :=
  .obj [("context", .str prompt),
    ("instructions", .arr ((padInstructions instructions 64).map InstructionRecord.toJson)),
    ("metadata", .obj [("source", .str source), ("name", .str name), ("category", .str category),
      ("difficulty", .int difficulty)])]

/-! ## The records of a decoded program -/

/-- What a decoded instruction holds in the fields the clamps read. -/
def DecodedFields (instr : Instruction) : Prop :=
  FieldsNonneg instr ∧ (instr.hasImm = 0 ∨ instr.hasImm = 1)

theorem Decoded.fields {instructions : List Instruction} (decoded : Decoded instructions) :
    ∀ instr ∈ instructions, DecodedFields instr := by
  induction decoded with
  | nil => intro _ member; cases member
  | truncated cut nonneg =>
      intro instr member
      rw [List.mem_singleton.mp member]
      exact ⟨nonneg, .inl cut.noImm.1⟩
  | cons encodable nonneg _ ih =>
      intro instr member
      rcases List.mem_cons.mp member with rfl | later
      · refine ⟨nonneg, ?_⟩
        have immediate := encodable.immediate
        split_ifs at immediate
        exacts [.inr immediate.1, .inl immediate.1]
      · exact ih instr later

/-- `decode_binary` returns only the programs `Decoded` describes. -/
theorem decoded_of_decodeBinary {data : List UInt8} {instructions : List Instruction}
    (decoded : decodeBinary data = .ok instructions) : Decoded instructions := by
  by_cases header : data.length < 16 ∨ slice data 0 4 ≠ magic
  · rw [decodeBinary, if_pos header] at decoded
    cases decoded
    exact .nil
  · have four : (slice data 8 12).length = 4 := by
      rw [length_slice]
      omega
    rw [decodeBinary, if_neg header, unpackU32_of_length four, ok_bind] at decoded
    exact decodeLoop_decoded decoded

theorem clampsIntoRange_toDict {instr : Instruction} (fields : DecodedFields instr) (head : Head) :
    ParallelDataset.ClampsIntoRange head (instr.toDict.field head) := by
  obtain ⟨⟨opcode, rd, rs1, rs2, mode⟩, hasImm⟩ := fields
  cases head <;> simp [ParallelDataset.ClampsIntoRange, Instruction.toDict, *]

/-- Every record `pad_instructions` makes of a decoded program passes the
clamps. -/
theorem clampsIntoRange_padInstructions {instructions : List Instruction}
    (fields : ∀ instr ∈ instructions, DecodedFields instr) :
    ∀ record ∈ padInstructions instructions 64, ∀ head,
      ParallelDataset.ClampsIntoRange head (record.field head) := by
  intro record member head
  rw [padInstructions, padRecords_eq] at member
  rcases List.mem_append.mp member with kept | padded
  · obtain ⟨instr, inside, rfl⟩ := List.mem_map.mp (List.mem_of_mem_take kept)
    exact clampsIntoRange_toDict (fields instr inside) head
  · rw [List.eq_of_mem_replicate padded]
    cases head <;> simp [ParallelDataset.ClampsIntoRange, InstructionRecord.padding]

end Data

namespace Train

open Data (Instruction JsonValue JsonLine Sample numSlots fileSample)
open Data.ParallelDataset (keptSample loadsQuietly init withinCap)

/-! ## One line -/

/-- The sample `ParallelDataset` keeps of a line: none for an empty prompt,
else the prompt, the records, and the category `'unknown'`. -/
theorem keptSample_fileSample (source prompt name category : String) (difficulty : Int)
    (instructions : List Instruction) :
    keptSample (.value (fileSample source prompt name category difficulty instructions)) =
      if prompt.isEmpty then none else
        some ⟨.str prompt, .arr ((Data.padInstructions instructions 64).map Data.InstructionRecord.toJson),
          .str "unknown"⟩ := by
  have full : ((Data.padInstructions instructions 64).map Data.InstructionRecord.toJson).isEmpty = false := by
    rw [List.isEmpty_eq_false, ← List.length_pos, List.length_map, Data.padInstructions,
      Data.length_padRecords]
    decide
  by_cases empty : prompt.isEmpty <;>
    simp [keptSample, Data.ParallelDataset.selectSample, Data.ParallelDataset.selectedText, fileSample,
      JsonValue.lookup, JsonValue.truthy, empty, full]
  rfl

theorem loadsQuietly_fileSample (source prompt name category : String) (difficulty : Int)
    (instructions : List Instruction) :
    loadsQuietly (.value (fileSample source prompt name category difficulty instructions)) = true := by
  have kept := keptSample_fileSample source prompt name category difficulty instructions
  rw [fileSample] at kept ⊢
  simp only [keptSample] at kept
  simp only [loadsQuietly, kept]
  split_ifs <;> rfl

theorem clamped_fileSample {prompt : String} {instructions : List Instruction}
    (fields : ∀ instr ∈ instructions, Data.DecodedFields instr) :
    Clamped numSlots ⟨.str prompt, .arr ((Data.padInstructions instructions 64).map Data.InstructionRecord.toJson),
      .str "unknown"⟩ := by
  refine ⟨prompt, _, rfl, rfl, fun item member => ?_⟩
  obtain ⟨record, inside, rfl⟩ := List.mem_map.mp (List.mem_of_mem_take member)
  refine ⟨Data.ParallelDataset.intFields_toJson record, fun head => ?_⟩
  rw [Data.ParallelDataset.fieldInt_toJson]
  exact Data.clampsIntoRange_padInstructions fields record inside head

/-! ## The file -/

/-- One drawn prompt of an assembled file: the metadata, the bytes `nl asm`
wrote for the file, and the program `decode_binary` read from them. -/
structure FileDraw where
  source : String
  prompt : String
  name : String
  category : String
  difficulty : Int
  binary : List UInt8
  instructions : List Instruction
  decoded : Data.decodeBinary binary = .ok instructions

/-- The line `main` writes for a draw. -/
def FileDraw.line (draw : FileDraw) : JsonValue :=
  fileSample draw.source draw.prompt draw.name draw.category draw.difficulty draw.instructions

/-- For every file of lines that `generate_lib_data` and
`generate_examples_data` wrote, in any order and under any `max_samples`,
`ParallelDataset` keeps, in
file order, exactly the lines inside the cap whose prompt is not empty, each
with the prompt as text, the padded records as instructions and the category
`'unknown'`; and every sample it keeps passes the clamps of `__getitem__`
into every head's class range. -/
theorem init_fileSamples (draws : List FileDraw) (maxSamples : Option Int) :
    ∃ samples, init (draws.map fun draw => .value draw.line) maxSamples = .ok samples ∧
      samples = (withinCap maxSamples draws).filterMap (fun draw =>
        if draw.prompt.isEmpty then none else
          some ⟨.str draw.prompt,
            .arr ((Data.padInstructions draw.instructions 64).map Data.InstructionRecord.toJson),
            .str "unknown"⟩) ∧
      ∀ sample ∈ samples, Clamped numSlots sample := by
  have capped : withinCap maxSamples (draws.map fun draw => JsonLine.value draw.line) =
      (withinCap maxSamples draws).map fun draw => JsonLine.value draw.line := by
    rcases maxSamples with _ | cap
    · rfl
    · simp only [withinCap]
      split_ifs <;> simp [List.map_take]
  have quiet : ∀ line ∈ Data.ParallelDataset.readLines maxSamples 0 (draws.map fun draw => JsonLine.value draw.line),
      loadsQuietly line = true := by
    rw [Data.ParallelDataset.readLines_zero, capped]
    intro line member
    obtain ⟨draw, -, rfl⟩ := List.mem_map.mp member
    exact loadsQuietly_fileSample _ _ _ _ _ _
  refine ⟨_, Data.ParallelDataset.loadLines_eq maxSamples _ 0 quiet, ?_, ?_⟩
  · rw [Data.ParallelDataset.readLines_zero, capped, List.filterMap_map]
    exact List.filterMap_congr fun draw _ => keptSample_fileSample _ _ _ _ _ _
  · intro sample member
    rw [Data.ParallelDataset.readLines_zero, capped, List.mem_filterMap] at member
    obtain ⟨_, inCap, made⟩ := member
    obtain ⟨draw, -, rfl⟩ := List.mem_map.mp inCap
    rw [FileDraw.line, keptSample_fileSample] at made
    split_ifs at made
    cases made
    exact clamped_fileSample (Data.Decoded.fields (Data.decoded_of_decodeBinary draw.decoded))

end Train
end Neurlang
