import Neurlang.Data.Json

namespace Neurlang
namespace Data

/-!
# Instruction records, their padding, and the inference-side decoder

The generators build `Instruction` values and serialise each one with
`to_dict` into a record of eight integers.  Four copies of one padding loop
then extend a program to the fixed `NUM_SLOTS = 64` slots: `pad_instructions`
in `generate_training_data.py`, the `_pad_instructions` methods of the
extension and HTTP generators, and the inline loop of
`generate_diverse_samples`.  They share one definition here, `padRecords`,
and each keeps its own name applied to its own slot count.

`decode_instruction` in `test_inference.py` renders one predicted slot as
text.  Its immediate is `imm_bin - 128`, whereas the loader stores an
immediate as `imm % 256`; the dataset module proves what this pairing does.
The three `Instruction` dataclasses of the generator files are field for
field the same and are modelled once.
-/

/-- `NUM_SLOTS`: the instruction slots of one program. -/
def numSlots : Nat := 64

/-- One field of an instruction record and the prediction head for it, in the
order the source lists them. -/
inductive Head where
  | valid
  | opcode
  | mode
  | rd
  | rs1
  | rs2
  | hasImm
  | immBin
  deriving DecidableEq, Repr

namespace Head

/-- The source's order of the heads, also the order of the exported outputs. -/
def all : List Head := [valid, opcode, mode, rd, rs1, rs2, hasImm, immBin]

/-- The dict key of the field. -/
def key : Head -> String
  | valid => "valid"
  | opcode => "opcode"
  | mode => "mode"
  | rd => "rd"
  | rs1 => "rs1"
  | rs2 => "rs2"
  | hasImm => "has_imm"
  | immBin => "imm_bin"

/-- The classes of the head's linear layer: `2`, `NUM_OPCODES`, `NUM_MODES`,
`NUM_REGISTERS` three times, `2`, and `IMM_BINS`. -/
def numClasses : Head -> Nat
  | valid => 2
  | opcode => 33
  | mode => 8
  | rd => 32
  | rs1 => 32
  | rs2 => 32
  | hasImm => 2
  | immBin => 256

theorem one_lt_numClasses (head : Head) : 1 < head.numClasses := by
  cases head <;> decide

theorem mem_all (head : Head) : head ∈ all := by
  cases head <;> simp [all]

/-- Run one computation per head in the source's order and collect the
results; the first failure is the result. -/
def traverse {ε α : Type} (run : Head -> Except ε α) : Except ε (Head -> α) := do
  let valid ← run .valid
  let opcode ← run .opcode
  let mode ← run .mode
  let rd ← run .rd
  let rs1 ← run .rs1
  let rs2 ← run .rs2
  let hasImm ← run .hasImm
  let immBin ← run .immBin
  return fun
    | .valid => valid
    | .opcode => opcode
    | .mode => mode
    | .rd => rd
    | .rs1 => rs1
    | .rs2 => rs2
    | .hasImm => hasImm
    | .immBin => immBin

@[simp] theorem traverse_ok {ε α : Type} (values : Head -> α) :
    traverse (fun head => (.ok (values head) : Except ε α)) = .ok values := by
  show Except.ok _ = _
  congr 1
  funext head
  cases head <;> rfl

end Head

/-! ## Records -/

/-- The generators' `Instruction` dataclass. -/
structure Instruction where
  opcode : Int
  mode : Int
  rd : Int
  rs1 : Int
  rs2 : Int
  hasImm : Int
  imm : Int
  deriving DecidableEq, Repr

/-- A dict of eight integers, one for each field, as `to_dict` and the
padding loops build it. -/
structure InstructionRecord where
  field : Head -> Int

namespace InstructionRecord

/-- The record as `json.dumps` writes it and `json.loads` reads it back. -/
def toJson (record : InstructionRecord) : JsonValue :=
  .obj (Head.all.map fun head => (head.key, .int (record.field head)))

/-- The record each padding loop appends: `valid` 0 and every other field 0. -/
def padding : InstructionRecord := ⟨fun _ => 0⟩

end InstructionRecord

/-- `Instruction.to_dict`: `valid` is 1, and `imm_bin` is the immediate when
`has_imm` is truthy and 0 otherwise. -/
def Instruction.toDict (instr : Instruction) : InstructionRecord :=
  ⟨fun
    | .valid => 1
    | .opcode => instr.opcode
    | .mode => instr.mode
    | .rd => instr.rd
    | .rs1 => instr.rs1
    | .rs2 => instr.rs2
    | .hasImm => instr.hasImm
    | .immBin => if instr.hasImm != 0 then instr.imm else 0⟩

/-! ## The padding loops -/

/-- `while len(result) < slots: result.append(padding)`. -/
def padWhile (slots : Nat) (result : List InstructionRecord) : List InstructionRecord :=
  if result.length < slots then padWhile slots (result ++ [InstructionRecord.padding])
  else result
termination_by slots - result.length

theorem padWhile_eq (slots : Nat) (result : List InstructionRecord) :
    padWhile slots result =
      result ++ List.replicate (slots - result.length) InstructionRecord.padding := by
  induction result using padWhile.induct slots with
  | case1 result short ih =>
      rw [padWhile, if_pos short, ih, List.length_append, List.length_singleton,
        List.append_assoc, List.singleton_append, ← List.replicate_succ]
      congr 2
      omega
  | case2 result long =>
      rw [padWhile, if_neg long, Nat.sub_eq_zero_of_le (Nat.le_of_not_lt long)]
      simp

/-- The body the four padders share: serialise, pad with the loop, and cut
to `result[:slots]`. -/
def padRecords (slots : Nat) (instructions : List Instruction) : List InstructionRecord :=
  (padWhile slots (instructions.map Instruction.toDict)).take slots

/-- `pad_instructions(instructions, slots)` of `generate_training_data.py`. -/
def padInstructions (instructions : List Instruction) (slots : Nat) : List InstructionRecord :=
  padRecords slots instructions

/-- `ExtensionPatternGenerator._pad_instructions`. -/
def ExtensionPatternGenerator.padInstructions (instructions : List Instruction) (slots : Nat) :
    List InstructionRecord :=
  padRecords slots instructions

/-- `HTTPPatternGenerator._pad_instructions`. -/
def HTTPPatternGenerator.padInstructions (instructions : List Instruction) (slots : Nat) :
    List InstructionRecord :=
  padRecords slots instructions

/-- The `instr_dicts` that `generate_diverse_samples` pads inline to 64
slots and stores as `instr_dicts[:64]`. -/
def generateDiverseSamples.instrDicts (instructions : List Instruction) :
    List InstructionRecord :=
  padRecords 64 instructions

/-- Every padder returns the serialised instructions, cut to `slots`, followed
by padding records up to exactly `slots` records. -/
theorem padRecords_eq (slots : Nat) (instructions : List Instruction) :
    padRecords slots instructions =
      (instructions.map Instruction.toDict).take slots ++
        List.replicate (slots - instructions.length) InstructionRecord.padding := by
  rw [padRecords, padWhile_eq, List.take_append_eq_append_take, List.length_map,
    List.take_replicate]
  congr 2
  omega

theorem length_padRecords (slots : Nat) (instructions : List Instruction) :
    (padRecords slots instructions).length = slots := by
  rw [padRecords_eq]
  simp only [List.length_append, List.length_take, List.length_map, List.length_replicate]
  omega

/-! ## Rendering a predicted slot -/

/-- `OPCODE_NAMES` of `test_inference.py`. -/
def opcodeNames : List String :=
  ["NOP", "MOV", "LD", "ST", "ALU", "ALUI", "MULDIV", "MULHI",
    "BRANCH", "JUMP", "CALL", "RET", "COMPARE", "SETCC", "SEXT", "ZEXT",
    "SHIFT", "SHIFTI", "BITOP", "BITOPI", "LEA", "SPECIAL", "FLOAT", "FLOATI",
    "SIMD", "SIMDI", "DEBUG", "HINT", "SYS", "EXT.CALL", "EXT.LOAD", "EXT.STORE",
    "HALT"]

/-- `REGISTER_NAMES`: `r0` to `r30`, then `zero`. -/
def registerNames : List String :=
  (List.range 31).map (fun index => s!"r{index}") ++ ["zero"]

/-- A name from a table, or the fallback text for an index past its end. -/
def nameOr (names : List String) (index : Nat) (fallback : String) : String :=
  if index < names.length then names.getD index "" else fallback

/-- The immediate `decode_instruction` renders for a bin: `imm_bin - 128`,
the bin read as centred on 128. -/
def decodeImmediate (immBin : Nat) : Int :=
  immBin - 128

/-- `decode_instruction`: `None` for an invalid slot, otherwise the assembly
text, with an immediate operand when `has_imm` is set.  The arguments are the
heads' arg-max indices, so natural numbers. -/
def decodeInstruction (valid opcode mode rd rs1 rs2 hasImm immBin : Nat) : Option String :=
  if valid = 0 then none else
    let opname := nameOr opcodeNames opcode s!"OP{opcode}"
    let rdName := nameOr registerNames rd s!"r{rd}"
    let rs1Name := nameOr registerNames rs1 s!"r{rs1}"
    let rs2Name := nameOr registerNames rs2 s!"r{rs2}"
    if hasImm != 0 then
      let imm := decodeImmediate immBin
      some s!"{opname}.{mode} {rdName}, {rs1Name}, #{imm}"
    else
      some s!"{opname}.{mode} {rdName}, {rs1Name}, {rs2Name}"

/-- A valid slot with `has_imm` set renders its immediate last, as
`decodeImmediate` of the bin. -/
theorem decodeInstruction_of_hasImm {valid hasImm : Nat} (opcode mode rd rs1 rs2 immBin : Nat)
    (isValid : valid ≠ 0) (withImm : hasImm ≠ 0) :
    ∃ lead, decodeInstruction valid opcode mode rd rs1 rs2 hasImm immBin =
      some (lead ++ toString (decodeImmediate immBin)) := by
  simp only [decodeInstruction, if_neg isValid, bne_iff_ne, ne_eq, withImm, not_false_eq_true,
    if_true, show (toString "" : String) = "" from rfl, String.append_empty]
  exact ⟨_, rfl⟩

theorem nameOr_mem {names : List String} {index : Nat} (within : index < names.length) (fallback : String) :
    nameOr names index fallback ∈ names := by
  rw [nameOr, if_pos within, List.getD_eq_getElem _ _ within]
  exact List.getElem_mem within

theorem length_registerNames : registerNames.length = 32 := by
  simp [registerNames]

theorem isEmpty_of_data {s : String} (nonempty : s.data ≠ []) : s.isEmpty = false := by
  obtain ⟨data⟩ := s
  cases data with
  | nil => exact absurd rfl nonempty
  | cons c cs =>
      have := Char.utf8Size_pos c
      simp only [String.isEmpty, String.endPos, String.utf8ByteSize, String.utf8ByteSize.go, beq_eq_false_iff_ne,
        ne_eq]
      intro empty
      have := congrArg String.Pos.byteIdx empty
      simp only [String.Pos.byteIdx_zero] at this
      omega

/-- A slot rendered from classes inside the heads' ranges is a line that is
not empty, takes its opcode and register names from the tables, never from
the `OP{n}` and `r{n}` fallbacks, and shows an immediate in `[-128, 127]`. -/
theorem decodeInstruction_names {valid opcode mode rd rs1 rs2 hasImm immBin : Nat} {line : String}
    (rendered : decodeInstruction valid opcode mode rd rs1 rs2 hasImm immBin = some line)
    (opcodeLt : opcode < 33) (rdLt : rd < 32) (rs1Lt : rs1 < 32) (rs2Lt : rs2 < 32) (binLt : immBin < 256) :
    line.isEmpty = false ∧ ∃ opname ∈ opcodeNames, ∃ rdName ∈ registerNames, ∃ rs1Name ∈ registerNames,
      (∃ rs2Name ∈ registerNames, line = s!"{opname}.{mode} {rdName}, {rs1Name}, {rs2Name}") ∨
      ∃ imm : Int, -128 ≤ imm ∧ imm < 128 ∧ line = s!"{opname}.{mode} {rdName}, {rs1Name}, #{imm}" := by
  have opname := nameOr_mem (show opcode < opcodeNames.length from opcodeLt) s!"OP{opcode}"
  have rdName := nameOr_mem (length_registerNames ▸ rdLt) s!"r{rd}"
  have rs1Name := nameOr_mem (length_registerNames ▸ rs1Lt) s!"r{rs1}"
  have rs2Name := nameOr_mem (length_registerNames ▸ rs2Lt) s!"r{rs2}"
  unfold decodeInstruction at rendered
  split_ifs at rendered with isValid withImm
  · cases rendered
    exact ⟨isEmpty_of_data (by simp), _, opname, _, rdName, _, rs1Name,
      .inr ⟨decodeImmediate immBin, by unfold decodeImmediate; omega, by unfold decodeImmediate; omega, rfl⟩⟩
  · cases rendered
    exact ⟨isEmpty_of_data (by simp), _, opname, _, rdName, _, rs1Name, .inl ⟨_, rs2Name, rfl⟩⟩

end Data
end Neurlang
