import Mathlib.Data.Int.Bitwise
import Mathlib.Data.Vector.Defs
import Neurlang.Data.Instruction

namespace Neurlang
namespace Data

/-!
# `decode_binary`: reading an assembled image back

`assemble_example` runs the assembler on a `.nl` file and hands the bytes it
wrote to `decode_binary`.  The image has a 16-byte header, `b'NRLG'` first and
the length of the code in bytes 8 to 11, and then one little-endian word per
instruction, with opcode, destination, two sources and mode as bit fields; the
word of an opcode in `EXTENDED_OPCODES` is followed by a signed 32-bit
immediate.

The decoder reads the header, cuts the code slice, and runs a `while` loop
over it.  One pass of the loop is `decodeStep`; `decodeLoop` repeats it, and
terminates because a pass that does not end the loop moves the offset forward
by 4 or 8 (`decodeStep_advances`).  `struct.unpack` raises `struct.error` on a
buffer that is not exactly four bytes long, which `unpackU32` keeps.

The second part states the image as the assembler writes it, from the words of
the format, and proves that `decode_binary` reads every such image back.  The
third shows the converse: what the decoder returns is such a program, up to
one last extended opcode cut short, and is read back from its own image.
-/

/-- `struct.error`, raised by `struct.unpack` on a buffer of the wrong size. -/
inductive StructError where
  | structError
  deriving DecidableEq, Repr

/-- `EXTENDED_OPCODES`: the opcodes whose word is followed by an immediate. -/
def extendedOpcodes : List Int :=
  [0x01, 0x03, 0x04, 0x06, 0x07, 0x09, 0x14, 0x15, 0x16, 0x17, 0x18, 0x1C, 0x20]

/-- `b'NRLG'`. -/
def magic : List UInt8 := [78, 82, 76, 71]

/-- `data[start:stop]` for `start ≤ stop`: Python cuts both ends at the
length of the data. -/
def slice (data : List UInt8) (start stop : Nat) : List UInt8 :=
  (data.drop start).take (stop - start)

/-- The little-endian value of a byte string. -/
def le (bytes : List UInt8) : Nat :=
  bytes.foldr (fun byte value => byte.toNat + 256 * value) 0

/-- `struct.unpack('<I', buffer)[0]`. -/
def unpackU32 (buffer : List UInt8) : Except StructError Nat :=
  if buffer.length = 4 then .ok (le buffer) else .error .structError

/-- The two's-complement value of a 32-bit word. -/
def signed32 (value : Nat) : Int :=
  if value < 2 ^ 31 then value else (value : Int) - 2 ^ 32

/-- `struct.unpack('<i', buffer)[0]`. -/
def unpackI32 (buffer : List UInt8) : Except StructError Int := do
  let value ← unpackU32 buffer
  pure (signed32 value)

/-- The instruction `decode_binary` builds from its first word `word1`. -/
def instructionOfWord (word1 : Nat) (hasImm imm : Int) : Instruction :=
  let opcode := (word1 >>> 26) &&& 0x3F
  let rd := (word1 >>> 21) &&& 0x1F
  let rs1 := (word1 >>> 16) &&& 0x1F
  let rs2 := (word1 >>> 11) &&& 0x1F
  let mode := (word1 >>> 8) &&& 0x7
  ⟨opcode, mode, rd, rs1, rs2, hasImm, imm⟩

/-- One pass of the `while` loop at `offset`: `none` when the loop ends there,
by its condition or by the `break`, and otherwise the instruction it appends
and the next offset. -/
def decodeStep (code : List UInt8) (offset : Nat) : Except StructError (Option (Instruction × Nat)) :=
  if offset < code.length then
    if offset + 4 > code.length then .ok none
    else do
      let word1 ← unpackU32 (slice code offset (offset + 4))
      let opcode := (word1 >>> 26) &&& 0x3F
      let offset := offset + 4
      if (opcode : Int) ∈ extendedOpcodes ∧ offset + 4 ≤ code.length then
        let imm ← unpackI32 (slice code offset (offset + 4))
        pure (some (instructionOfWord word1 1 imm, offset + 4))
      else
        pure (some (instructionOfWord word1 0 0, offset))
  else .ok none

theorem length_slice (data : List UInt8) (start stop : Nat) :
    (slice data start stop).length = min (stop - start) (data.length - start) := by
  rw [slice, List.length_take, List.length_drop]

theorem unpackU32_of_length {buffer : List UInt8} (four : buffer.length = 4) :
    unpackU32 buffer = .ok (le buffer) :=
  if_pos four

section Step

variable {code : List UInt8} {offset : Nat}

/-- The loop ends at an offset with fewer than four bytes left. -/
theorem decodeStep_end (short : code.length < offset + 4) : decodeStep code offset = .ok none := by
  unfold decodeStep
  split_ifs <;> rfl

/-- A pass at an offset with four bytes left appends the instruction of the
word there, with the immediate after it when the opcode is extended and four
more bytes are left. -/
theorem decodeStep_word (room : offset + 4 ≤ code.length) :
    decodeStep code offset = .ok (some (
      let word1 := le (slice code offset (offset + 4))
      if (((word1 >>> 26) &&& 0x3F : Nat) : Int) ∈ extendedOpcodes ∧ offset + 8 ≤ code.length then
        (instructionOfWord word1 1 (signed32 (le (slice code (offset + 4) (offset + 8)))), offset + 8)
      else (instructionOfWord word1 0 0, offset + 4))) := by
  have word : (slice code offset (offset + 4)).length = 4 := by rw [length_slice]; omega
  unfold decodeStep
  rw [if_pos (by omega), if_neg (by omega)]
  simp only [unpackU32_of_length word, ok_bind, Nat.add_assoc, Nat.reduceAdd]
  split_ifs with extended
  · have imm : (slice code (offset + 4) (offset + 8)).length = 4 := by rw [length_slice]; omega
    simp only [unpackI32, unpackU32_of_length imm, ok_bind]
    rfl
  · rfl

/-- Every pass either ends the loop or appends an instruction and moves the
offset by 4 or 8, within the code; none raises. -/
theorem decodeStep_cases (code : List UInt8) (offset : Nat) :
    decodeStep code offset = .ok none ∨ ∃ instr next,
      decodeStep code offset = .ok (some (instr, next)) ∧
        (next = offset + 4 ∨ next = offset + 8) ∧ next ≤ code.length := by
  by_cases room : offset + 4 ≤ code.length
  · right
    rw [decodeStep_word room]
    dsimp only
    split_ifs with extended
    · exact ⟨_, _, rfl, .inr rfl, extended.2⟩
    · exact ⟨_, _, rfl, .inl rfl, room⟩
  · exact .inl (decodeStep_end (by omega))

theorem decodeStep_advances {next : Nat} {instr : Instruction}
    (step : decodeStep code offset = .ok (some (instr, next))) :
    (next = offset + 4 ∨ next = offset + 8) ∧ next ≤ code.length := by
  rcases decodeStep_cases code offset with ends | ⟨instr', next', moved, advances⟩
  · rw [ends] at step
    cases step
  · rw [moved] at step
    cases step
    exact advances

end Step

/-- The `while` loop from `offset` on: the instructions it appends, in order. -/
def decodeLoop (code : List UInt8) (offset : Nat) : Except StructError (List Instruction) :=
  match step : decodeStep code offset with
  | .error error => .error error
  | .ok none => .ok []
  | .ok (some (instr, next)) =>
      have : code.length - next < code.length - offset := by
        have := decodeStep_advances step
        omega
      (instr :: ·) <$> decodeLoop code next
termination_by code.length - offset

section Loop

variable {code : List UInt8} {offset : Nat}

theorem decodeLoop_of_none (ends : decodeStep code offset = .ok none) : decodeLoop code offset = .ok [] := by
  rw [decodeLoop]
  split <;> simp_all

theorem decodeLoop_of_some {instr : Instruction} {next : Nat}
    (step : decodeStep code offset = .ok (some (instr, next))) :
    decodeLoop code offset = (instr :: ·) <$> decodeLoop code next := by
  rw [decodeLoop]
  split <;> simp_all

/-- From any offset the loop returns, with at most one instruction for every
four bytes left. -/
theorem decodeLoop_ok (code : List UInt8) (offset : Nat) :
    ∃ instructions, decodeLoop code offset = .ok instructions ∧
      4 * instructions.length ≤ code.length - offset := by
  induction offset using decodeLoop.induct code with
  | case1 offset error step =>
      rcases decodeStep_cases code offset with ends | ⟨_, _, moved, _⟩ <;> simp_all
  | case2 offset ends => exact ⟨[], decodeLoop_of_none ends, by simp⟩
  | case3 offset instr next step _ ih =>
      obtain ⟨rest, done, bound⟩ := ih
      have advances := decodeStep_advances step
      refine ⟨instr :: rest, by rw [decodeLoop_of_some step, done]; rfl, ?_⟩
      simp only [List.length_cons]
      omega

end Loop

/-- `decode_binary(data)`. -/
def decodeBinary (data : List UInt8) : Except StructError (List Instruction) :=
  if data.length < 16 ∨ slice data 0 4 ≠ magic then .ok []
  else do
    let codeLen ← unpackU32 (slice data 8 12)
    let code := slice data 16 (16 + codeLen)
    decodeLoop code 0

/-- On every byte string `decode_binary` returns without raising.  Every pass
of its loop ends it or moves the offset by 4 or 8 within the code, so every
`struct.unpack` receives four bytes.  It returns at most `c / 4` instructions,
`c` the length of the code slice, and none for data shorter than 16 bytes or
not starting with `b'NRLG'`. -/
theorem decodeBinary_total :
    (∀ code offset, decodeStep code offset = .ok none ∨ ∃ instr next,
        decodeStep code offset = .ok (some (instr, next)) ∧
          (next = offset + 4 ∨ next = offset + 8) ∧ next ≤ code.length) ∧
    ∀ data, ∃ instructions, decodeBinary data = .ok instructions ∧
      instructions.length ≤ min (le (slice data 8 12)) (data.length - 16) / 4 ∧
      (data.length < 16 ∨ data.take 4 ≠ magic -> instructions = []) := by
  refine ⟨decodeStep_cases, fun data => ?_⟩
  by_cases header : data.length < 16 ∨ slice data 0 4 ≠ magic
  · exact ⟨[], by rw [decodeBinary, if_pos header], by simp, fun _ => rfl⟩
  · have four : (slice data 8 12).length = 4 := by
      rw [length_slice]
      omega
    obtain ⟨instructions, done, bound⟩ := decodeLoop_ok (slice data 16 (16 + le (slice data 8 12))) 0
    refine ⟨instructions, by rw [decodeBinary, if_neg header, unpackU32_of_length four, ok_bind]; exact done,
      ?_, fun short => absurd (by simpa [slice] using short) header⟩
    rw [length_slice] at bound
    omega

/-! ## The assembled image -/

/-- The `count` little-endian bytes of `value`. -/
def leBytes : Nat -> Nat -> List UInt8
  | 0, _ => []
  | count + 1, value => (value % 256).toUInt8 :: leBytes count (value / 256)

/-- A value written as a little-endian unsigned 32-bit field, when it fits
one. -/
def packU32 (value : Int) : Option (List UInt8) :=
  if 0 ≤ value ∧ value < 2 ^ 32 then some (leBytes 4 value.toNat) else none

/-- A value written as a little-endian signed 32-bit field, when it fits
one. -/
def packI32 (value : Int) : Option (List UInt8) :=
  if -2 ^ 31 ≤ value ∧ value < 2 ^ 31 then some (leBytes 4 (value % 2 ^ 32).toNat) else none

/-- The word of an instruction, `opcode<<26 | rd<<21 | rs1<<16 | rs2<<11 | mode<<8`. -/
def wordOf (instr : Instruction) : Int :=
  Int.lor (Int.lor (Int.lor (Int.lor (instr.opcode <<< 26) (instr.rd <<< 21)) (instr.rs1 <<< 16))
    (instr.rs2 <<< 11)) (instr.mode <<< 8)

/-- The bytes of one instruction: its word, and after it the immediate when the
opcode is extended. -/
def encodeInstruction (instr : Instruction) : Option (List UInt8) := do
  let word ← packU32 (wordOf instr)
  if instr.opcode ∈ extendedOpcodes then
    let imm ← packI32 instr.imm
    pure (word ++ imm)
  else pure word

/-- The image of a program: `b'NRLG'`, four free bytes, the code length, four
free bytes, and the code.  It exists when every field and the code length fit
their 32-bit fields. -/
def image (instructions : List Instruction) (version reserved : Mathlib.Vector UInt8 4) :
    Option (List UInt8) := do
  let code := List.flatten (← instructions.mapM encodeInstruction)
  let length ← packU32 code.length
  pure (magic ++ version.toList ++ length ++ reserved.toList ++ code)

/-- The word of an instruction with natural fields below their widths. -/
def fieldWord (opcode mode rd rs1 rs2 : Nat) : Nat :=
  opcode * 2 ^ 26 + rd * 2 ^ 21 + rs1 * 2 ^ 16 + rs2 * 2 ^ 11 + mode * 2 ^ 8

/-- Every field non-negative: the words are then within 32 bits. -/
def FieldsNonneg (instr : Instruction) : Prop :=
  0 ≤ instr.opcode ∧ 0 ≤ instr.rd ∧ 0 ≤ instr.rs1 ∧ 0 ≤ instr.rs2 ∧ 0 ≤ instr.mode

/-- An instruction the image can carry: fields below their widths, and a
signed 32-bit immediate exactly when the opcode is extended. -/
structure Encodable (instr : Instruction) : Prop where
  opcode_lt : instr.opcode < 64
  rd_lt : instr.rd < 32
  rs1_lt : instr.rs1 < 32
  rs2_lt : instr.rs2 < 32
  mode_lt : instr.mode < 8
  immediate : if instr.opcode ∈ extendedOpcodes then
      instr.hasImm = 1 ∧ -2 ^ 31 ≤ instr.imm ∧ instr.imm < 2 ^ 31
    else instr.hasImm = 0 ∧ instr.imm = 0

theorem length_leBytes (count value : Nat) : (leBytes count value).length = count := by
  induction count generalizing value <;> simp [leBytes, *]

theorem le_leBytes (count value : Nat) (fits : value < 256 ^ count) : le (leBytes count value) = value := by
  induction count generalizing value with
  | zero => simp_all [leBytes, le]
  | succ count ih =>
      have rest : value / 256 < 256 ^ count := by
        rw [Nat.div_lt_iff_lt_mul (by norm_num)]
        simpa [pow_succ] using fits
      have low : (value % 256).toUInt8.toNat = value % 256 :=
        UInt8.toNat_ofNat_of_lt (Nat.mod_lt _ (by norm_num))
      have := ih _ rest
      simp only [leBytes, le, List.foldr_cons] at this ⊢
      rw [low, this]
      omega

theorem lor_nonneg_iff {a b : Int} : 0 ≤ Int.lor a b ↔ 0 ≤ a ∧ 0 ≤ b := by
  cases a <;> cases b <;> simp [Int.lor, Int.negSucc_lt_zero]

theorem shiftLeft_nonneg_iff (a : Int) (k : Nat) : 0 ≤ a <<< (k : Int) ↔ 0 ≤ a := by
  cases a <;> simp [Int.negSucc_lt_zero]

theorem wordOf_nonneg_iff (instr : Instruction) :
    0 ≤ wordOf instr ↔ FieldsNonneg instr := by
  simp only [FieldsNonneg, wordOf, lor_nonneg_iff, and_assoc]
  simp only [show (26 : Int) = ((26 : Nat) : Int) from rfl, show (21 : Int) = ((21 : Nat) : Int) from rfl,
    show (16 : Int) = ((16 : Nat) : Int) from rfl, show (11 : Int) = ((11 : Nat) : Int) from rfl,
    show (8 : Int) = ((8 : Nat) : Int) from rfl, shiftLeft_nonneg_iff]

theorem or_shift_eq_add {a b i : Nat} (lt : b < 2 ^ i) : a * 2 ^ i ||| b = a * 2 ^ i + b := by
  rw [Nat.mul_comm, Nat.mul_add_lt_is_or lt]

theorem wordOf_natCast (opcode mode rd rs1 rs2 : Nat) (hasImm imm : Int) (rdLt : rd < 32)
    (rs1Lt : rs1 < 32) (rs2Lt : rs2 < 32) (modeLt : mode < 8) :
    wordOf ⟨opcode, mode, rd, rs1, rs2, hasImm, imm⟩ = (fieldWord opcode mode rd rs1 rs2 : Int) := by
  simp only [wordOf, show (26 : Int) = ((26 : Nat) : Int) from rfl, show (21 : Int) = ((21 : Nat) : Int) from rfl,
    show (16 : Int) = ((16 : Nat) : Int) from rfl, show (11 : Int) = ((11 : Nat) : Int) from rfl,
    show (8 : Int) = ((8 : Nat) : Int) from rfl, Int.shiftLeft_coe_nat]
  show ((opcode <<< 26 ||| rd <<< 21 ||| rs1 <<< 16 ||| rs2 <<< 11 ||| mode <<< 8 : Nat) : Int) = _
  simp only [Nat.shiftLeft_eq, Nat.or_assoc]
  rw [or_shift_eq_add (by omega : mode * 2 ^ 8 < 2 ^ 11), or_shift_eq_add (by omega : rs2 * 2 ^ 11 + mode * 2 ^ 8 < 2 ^ 16),
    or_shift_eq_add (by omega : rs1 * 2 ^ 16 + (rs2 * 2 ^ 11 + mode * 2 ^ 8) < 2 ^ 21),
    or_shift_eq_add (by omega : rd * 2 ^ 21 + (rs1 * 2 ^ 16 + (rs2 * 2 ^ 11 + mode * 2 ^ 8)) < 2 ^ 26)]
  simp only [fieldWord, Nat.add_assoc]

theorem land_mask (x : Nat) : x &&& 63 = x % 64 ∧ x &&& 31 = x % 32 ∧ x &&& 7 = x % 8 :=
  ⟨Nat.and_pow_two_sub_one_eq_mod x 6, Nat.and_pow_two_sub_one_eq_mod x 5, Nat.and_pow_two_sub_one_eq_mod x 3⟩

theorem opcode_fieldWord {opcode mode rd rs1 rs2 : Nat} (opcodeLt : opcode < 64) (rdLt : rd < 32)
    (rs1Lt : rs1 < 32) (rs2Lt : rs2 < 32) (modeLt : mode < 8) :
    (fieldWord opcode mode rd rs1 rs2 >>> 26) &&& 0x3F = opcode := by
  rw [Nat.shiftRight_eq_div_pow, (land_mask _).1, fieldWord]
  omega

theorem instructionOfWord_fieldWord {opcode mode rd rs1 rs2 : Nat} (hasImm imm : Int) (opcodeLt : opcode < 64)
    (rdLt : rd < 32) (rs1Lt : rs1 < 32) (rs2Lt : rs2 < 32) (modeLt : mode < 8) :
    instructionOfWord (fieldWord opcode mode rd rs1 rs2) hasImm imm = ⟨opcode, mode, rd, rs1, rs2, hasImm, imm⟩ := by
  simp only [instructionOfWord, Nat.shiftRight_eq_div_pow, (land_mask _).1, (land_mask _).2.1, (land_mask _).2.2,
    Instruction.mk.injEq, and_true, fieldWord]
  omega

theorem signed32_packI32 {imm : Int} (low : -2 ^ 31 ≤ imm) (high : imm < 2 ^ 31) :
    signed32 (le (leBytes 4 (imm % 2 ^ 32).toNat)) = imm := by
  have cast : ((imm % 2 ^ 32).toNat : Int) = imm % 2 ^ 32 := Int.toNat_of_nonneg (Int.emod_nonneg _ (by norm_num))
  rw [le_leBytes 4 _ (by omega), signed32]
  split_ifs <;> omega

theorem packU32_eq_some {value : Int} {bytes : List UInt8} (packed : packU32 value = some bytes) :
    0 ≤ value ∧ value < 2 ^ 32 ∧ bytes = leBytes 4 value.toNat := by
  unfold packU32 at packed
  split_ifs at packed with fits
  cases packed
  exact ⟨fits.1, fits.2, rfl⟩

theorem slice_of_drop {code rest : List UInt8} {offset : Nat} (tail : code.drop offset = rest) (start count : Nat) :
    slice code (offset + start) (offset + start + count) = (rest.drop start).take count := by
  rw [slice, Nat.add_sub_cancel_left, ← tail, List.drop_drop]

/-- One encoded instruction at `offset` decodes to itself, and the next pass
starts after its bytes. -/
theorem decodeStep_encoded {instr : Instruction} (encodable : Encodable instr) {chunk : List UInt8}
    (encoded : encodeInstruction instr = some chunk) {code more : List UInt8} {offset : Nat}
    (tail : code.drop offset = chunk ++ more) :
    decodeStep code offset = .ok (some (instr, offset + chunk.length)) := by
  obtain ⟨opcode, mode, rd, rs1, rs2, hasImm, imm⟩ := instr
  obtain ⟨opcodeLt, rdLt, rs1Lt, rs2Lt, modeLt, immediate⟩ := encodable
  dsimp only at opcodeLt rdLt rs1Lt rs2Lt modeLt immediate
  simp only [encodeInstruction, Option.bind_eq_bind, Option.bind_eq_some] at encoded
  obtain ⟨word, packed, rest⟩ := encoded
  obtain ⟨nonneg, below, rfl⟩ := packU32_eq_some packed
  obtain ⟨opcodeNonneg, rdNonneg, rs1Nonneg, rs2Nonneg, modeNonneg⟩ := (wordOf_nonneg_iff _).mp nonneg
  lift opcode to Nat using opcodeNonneg
  lift rd to Nat using rdNonneg
  lift rs1 to Nat using rs1Nonneg
  lift rs2 to Nat using rs2Nonneg
  lift mode to Nat using modeNonneg
  replace opcodeLt : opcode < 64 := by omega
  replace rdLt : rd < 32 := by omega
  replace rs1Lt : rs1 < 32 := by omega
  replace rs2Lt : rs2 < 32 := by omega
  replace modeLt : mode < 8 := by omega
  simp only [wordOf_natCast _ _ _ _ _ _ _ rdLt rs1Lt rs2Lt modeLt, Int.toNat_natCast] at below rest
  have word : le (leBytes 4 (fieldWord opcode mode rd rs1 rs2)) = fieldWord opcode mode rd rs1 rs2 :=
    le_leBytes 4 _ (by omega)
  have size : code.length - offset = (chunk ++ more).length := by rw [← List.length_drop, tail]
  have atWord : slice code offset (offset + 4) = (chunk ++ more).take 4 := by
    simpa using slice_of_drop tail 0 4
  have opcodeBits := opcode_fieldWord opcodeLt rdLt rs1Lt rs2Lt modeLt
  by_cases extended : (opcode : Int) ∈ extendedOpcodes
  · rw [if_pos extended] at rest immediate
    obtain ⟨one, low, high⟩ := immediate
    simp only [packI32, if_pos (And.intro low high), Option.some_bind, Option.pure_def, Option.some.injEq] at rest
    subst rest
    simp only [List.length_append, length_leBytes] at size ⊢
    have atImm : slice code (offset + 4) (offset + 8) = leBytes 4 (imm % 2 ^ 32).toNat := by
      rw [slice_of_drop tail 4 4, List.append_assoc, List.drop_left' (length_leBytes 4 _),
        List.take_left' (length_leBytes 4 _)]
    rw [decodeStep_word (by omega), atWord, List.append_assoc, List.take_left' (length_leBytes 4 _), word]
    dsimp only
    rw [opcodeBits, if_pos ⟨extended, by omega⟩, atImm, signed32_packI32 low high,
      instructionOfWord_fieldWord _ _ opcodeLt rdLt rs1Lt rs2Lt modeLt, one]
  · rw [if_neg extended] at rest immediate
    obtain ⟨zero, noImm⟩ := immediate
    simp only [Option.pure_def, Option.some.injEq] at rest
    subst rest zero noImm
    simp only [List.length_append, length_leBytes] at size ⊢
    rw [decodeStep_word (by omega), atWord, List.take_left' (length_leBytes 4 _), word]
    dsimp only
    rw [opcodeBits, if_neg fun both => extended both.1, instructionOfWord_fieldWord _ _ opcodeLt rdLt rs1Lt rs2Lt modeLt]

theorem decodeLoop_encoded (instructions : List Instruction) (encodable : ∀ instr ∈ instructions, Encodable instr)
    {chunks : List (List UInt8)} (encoded : instructions.mapM encodeInstruction = some chunks)
    {code : List UInt8} {offset : Nat} (tail : code.drop offset = chunks.flatten) :
    decodeLoop code offset = .ok instructions := by
  induction instructions generalizing chunks offset with
  | nil =>
      simp only [List.mapM_nil, Option.pure_def, Option.some.injEq] at encoded
      subst encoded
      have ends : code.length ≤ offset := by simpa using tail
      exact decodeLoop_of_none (decodeStep_end (by omega))
  | cons instr rest ih =>
      simp only [List.mapM_cons, Option.bind_eq_bind, Option.bind_eq_some, Option.pure_def,
        Option.some.injEq] at encoded
      obtain ⟨chunk, encodedHead, chunksRest, encodedRest, rfl⟩ := encoded
      rw [List.flatten_cons] at tail
      have next : code.drop (offset + chunk.length) = chunksRest.flatten := by
        rw [← List.drop_drop, tail, List.drop_left]
      rw [decodeLoop_of_some (decodeStep_encoded (encodable instr (List.mem_cons_self _ _)) encodedHead tail),
        ih (fun other member => encodable other (List.mem_cons_of_mem _ member)) encodedRest next]
      rfl

/-- For every list of instructions with fields below their widths and an
immediate exactly on the extended opcodes, and every choice of the free header
bytes, `decode_binary` reads the image back as the list. -/
theorem decodeBinary_image (instructions : List Instruction) (version reserved : Mathlib.Vector UInt8 4)
    (encodable : ∀ instr ∈ instructions, Encodable instr) {bytes : List UInt8}
    (built : image instructions version reserved = some bytes) :
    decodeBinary bytes = .ok instructions := by
  simp only [image, Option.bind_eq_bind, Option.bind_eq_some, Option.pure_def, Option.some.injEq] at built
  obtain ⟨chunks, encoded, lengthBytes, packed, rfl⟩ := built
  obtain ⟨-, fits, rfl⟩ := packU32_eq_some packed
  have fitsNat : chunks.flatten.length < 256 ^ 4 := by
    have : ((chunks.flatten.length : Nat) : Int) < ((256 ^ 4 : Nat) : Int) := by simpa using fits
    exact_mod_cast this
  rw [Int.toNat_natCast]
  have header : (magic ++ version.toList ++ leBytes 4 chunks.flatten.length ++ reserved.toList).length = 16 := by
    simp [magic, version.2, reserved.2, length_leBytes]
  have front : (magic ++ version.toList).length = 8 := by simp [magic, version.2]
  have atMagic : slice (magic ++ version.toList ++ leBytes 4 chunks.flatten.length ++ reserved.toList ++
      chunks.flatten) 0 4 = magic := by
    simp [slice, magic]
  have atLength : slice (magic ++ version.toList ++ leBytes 4 chunks.flatten.length ++ reserved.toList ++
      chunks.flatten) 8 12 = leBytes 4 chunks.flatten.length := by
    rw [slice, List.append_assoc, List.append_assoc, List.append_assoc, ← List.append_assoc magic,
      List.drop_left' front, List.take_left' (length_leBytes 4 _)]
  have atCode : slice (magic ++ version.toList ++ leBytes 4 chunks.flatten.length ++ reserved.toList ++
      chunks.flatten) 16 (16 + chunks.flatten.length) = chunks.flatten := by
    rw [slice, List.drop_left' header, Nat.add_sub_cancel_left, List.take_length]
  rw [decodeBinary, if_neg (by rw [atMagic, List.length_append, header]; simp), atLength,
    unpackU32_of_length (length_leBytes 4 _), ok_bind, le_leBytes 4 _ fitsNat]
  dsimp only
  rw [atCode]
  exact decodeLoop_encoded instructions encodable encoded (List.drop_zero _)

/-- An image of two instructions, one extended with a negative immediate and
one with every register field at its top value. -/
theorem decodeBinary_image_pair :
    let program : List Instruction := [⟨0x01, 0, 1, 2, 0, 1, -24⟩, ⟨0x1D, 0, 31, 30, 29, 0, 0⟩]
    image program ⟨[1, 0, 0, 0], rfl⟩ ⟨[0, 0, 0, 0], rfl⟩ = some
        [78, 82, 76, 71, 1, 0, 0, 0, 12, 0, 0, 0, 0, 0, 0, 0, 0, 0, 34, 4, 232, 255, 255, 255, 0, 232, 254, 119] ∧
      decodeBinary
        [78, 82, 76, 71, 1, 0, 0, 0, 12, 0, 0, 0, 0, 0, 0, 0, 0, 0, 34, 4, 232, 255, 255, 255, 0, 232, 254, 119] =
        .ok program := by
  intro program
  have built : image program ⟨[1, 0, 0, 0], rfl⟩ ⟨[0, 0, 0, 0], rfl⟩ = some
      [78, 82, 76, 71, 1, 0, 0, 0, 12, 0, 0, 0, 0, 0, 0, 0, 0, 0, 34, 4, 232, 255, 255, 255, 0, 232, 254, 119] := by
    decide
  refine ⟨built, decodeBinary_image program _ _ ?_ built⟩
  simp only [program, List.mem_cons, List.mem_singleton, List.not_mem_nil, or_false]
  rintro _ (rfl | rfl) <;> exact ⟨by decide, by decide, by decide, by decide, by decide, by decide⟩

theorem encodeInstruction_some {instr : Instruction} (encodable : Encodable instr)
    (nonneg : FieldsNonneg instr) :
    ∃ chunk, encodeInstruction instr = some chunk ∧ chunk.length ≤ 8 := by
  obtain ⟨opcode, mode, rd, rs1, rs2, hasImm, imm⟩ := instr
  obtain ⟨opcodeLt, rdLt, rs1Lt, rs2Lt, modeLt, immediate⟩ := encodable
  obtain ⟨opcodeNonneg, rdNonneg, rs1Nonneg, rs2Nonneg, modeNonneg⟩ := nonneg
  dsimp only at *
  lift opcode to Nat using opcodeNonneg
  lift rd to Nat using rdNonneg
  lift rs1 to Nat using rs1Nonneg
  lift rs2 to Nat using rs2Nonneg
  lift mode to Nat using modeNonneg
  have packed : packU32 (wordOf ⟨opcode, mode, rd, rs1, rs2, hasImm, imm⟩) =
      some (leBytes 4 (fieldWord opcode mode rd rs1 rs2)) := by
    rw [wordOf_natCast _ _ _ _ _ _ _ (by omega) (by omega) (by omega) (by omega), packU32,
      if_pos ⟨by omega, by simp only [fieldWord]; omega⟩, Int.toNat_natCast]
  simp only [encodeInstruction, packed, Option.bind_eq_bind, Option.some_bind]
  by_cases extended : (opcode : Int) ∈ extendedOpcodes
  · rw [if_pos extended] at immediate ⊢
    have packedImm : packI32 imm = some (leBytes 4 (imm % 2 ^ 32).toNat) :=
      if_pos ⟨immediate.2.1, immediate.2.2⟩
    simp only [packedImm, Option.some_bind, Option.pure_def]
    exact ⟨_, rfl, by simp [length_leBytes]⟩
  · rw [if_neg extended]
    exact ⟨_, rfl, by simp [length_leBytes]⟩

/-- A program whose chunks fit the 32-bit length field has an image, whatever
the free header bytes. -/
theorem image_of_chunks {instructions : List Instruction} (version reserved : Mathlib.Vector UInt8 4)
    {chunks : List (List UInt8)} (encoded : instructions.mapM encodeInstruction = some chunks)
    (fits : chunks.flatten.length < 2 ^ 32) : ∃ bytes, image instructions version reserved = some bytes := by
  have packed : packU32 chunks.flatten.length = some (leBytes 4 chunks.flatten.length) := by
    rw [packU32, if_pos ⟨Int.natCast_nonneg _, by exact_mod_cast fits⟩, Int.toNat_natCast]
  simp only [image, Option.bind_eq_bind, Option.bind_eq_some]
  exact ⟨_, chunks, encoded, _, packed, rfl⟩

/-! ## What the decoder returns

The other direction.  Every program `decode_binary` returns is one the image
can carry, except that an extended opcode whose immediate the code ran out
before is appended with `has_imm = 0`, and that one is last: fewer than four
bytes follow it.  A program without it is read back from its own image. -/

/-- An extended-opcode instruction cut short: the code ended before its
immediate, so it carries `has_imm = 0`; with the immediate marked present it
would be encodable. -/
structure Truncated (instr : Instruction) : Prop where
  extended : instr.opcode ∈ extendedOpcodes
  noImm : instr.hasImm = 0 ∧ instr.imm = 0
  marked : Encodable { instr with hasImm := 1 }

/-- The programs `decode_binary` returns: encodable instructions with
non-negative fields, ended by at most one truncated instruction. -/
inductive Decoded : List Instruction -> Prop
  | nil : Decoded []
  | truncated {instr : Instruction} : Truncated instr -> FieldsNonneg instr -> Decoded [instr]
  | cons {instr : Instruction} {rest : List Instruction} :
      Encodable instr -> FieldsNonneg instr -> Decoded rest -> Decoded (instr :: rest)

theorem le_lt (bytes : List UInt8) : le bytes < 256 ^ bytes.length := by
  induction bytes with
  | nil => simp [le]
  | cons byte rest ih =>
      have low := UInt8.toNat_lt_size byte
      simp only [le, List.foldr_cons, List.length_cons, pow_succ, UInt8.size] at ih low ⊢
      omega

theorem le_slice_lt (code : List UInt8) (start : Nat) : le (slice code start (start + 4)) < 2 ^ 32 :=
  calc le (slice code start (start + 4)) < 256 ^ (slice code start (start + 4)).length := le_lt _
    _ ≤ 256 ^ 4 := Nat.pow_le_pow_right (by norm_num) (by rw [length_slice]; omega)
    _ = 2 ^ 32 := by norm_num

theorem signed32_mem {value : Nat} (fits : value < 2 ^ 32) :
    -2 ^ 31 ≤ signed32 value ∧ signed32 value < 2 ^ 31 := by
  unfold signed32
  split_ifs <;> omega

/-- The masks keep every field of a word below its width. -/
theorem instructionOfWord_fields (word1 : Nat) (hasImm imm : Int) :
    FieldsNonneg (instructionOfWord word1 hasImm imm) ∧ (instructionOfWord word1 hasImm imm).opcode < 64 ∧
      (instructionOfWord word1 hasImm imm).rd < 32 ∧ (instructionOfWord word1 hasImm imm).rs1 < 32 ∧
      (instructionOfWord word1 hasImm imm).rs2 < 32 ∧ (instructionOfWord word1 hasImm imm).mode < 8 := by
  have opcode : (word1 >>> 26) &&& 63 ≤ 63 := Nat.and_le_right
  have rd : (word1 >>> 21) &&& 31 ≤ 31 := Nat.and_le_right
  have rs1 : (word1 >>> 16) &&& 31 ≤ 31 := Nat.and_le_right
  have rs2 : (word1 >>> 11) &&& 31 ≤ 31 := Nat.and_le_right
  have mode : (word1 >>> 8) &&& 7 ≤ 7 := Nat.and_le_right
  simp only [instructionOfWord, FieldsNonneg]
  omega

/-- The bytes `encodeInstruction` writes: the word, and the immediate after it
on an extended opcode. -/
theorem length_encodeInstruction {instr : Instruction} {chunk : List UInt8}
    (encoded : encodeInstruction instr = some chunk) :
    chunk.length = if instr.opcode ∈ extendedOpcodes then 8 else 4 := by
  simp only [encodeInstruction, Option.bind_eq_bind, Option.bind_eq_some] at encoded
  obtain ⟨word, packed, rest⟩ := encoded
  obtain ⟨-, -, rfl⟩ := packU32_eq_some packed
  split_ifs at rest ⊢
  · simp only [packI32, Option.pure_def] at rest
    split_ifs at rest
    · simp only [Option.some_bind, Option.some.injEq] at rest
      subst rest
      simp [length_leBytes]
    · cases rest
  · simp only [Option.pure_def, Option.some.injEq] at rest
    subst rest
    simp [length_leBytes]

section Decoded

variable {code : List UInt8} {offset : Nat}

/-- What one pass appends: an encodable instruction, after which the offset
has moved by its encoded length, or a truncated one, after which fewer than
four bytes are left. -/
theorem decodeStep_decoded {instr : Instruction} {next : Nat}
    (step : decodeStep code offset = .ok (some (instr, next))) :
    FieldsNonneg instr ∧
      (Encodable instr ∧ next = offset + (if instr.opcode ∈ extendedOpcodes then 8 else 4) ∨
        Truncated instr ∧ next = offset + 4 ∧ code.length < next + 4) := by
  have room : offset + 4 ≤ code.length := by
    by_contra short
    rw [decodeStep_end (by omega)] at step
    cases step
  rw [decodeStep_word room] at step
  dsimp only at step
  split_ifs at step with extended
  · simp only [Except.ok.injEq, Option.some.injEq, Prod.mk.injEq] at step
    obtain ⟨rfl, rfl⟩ := step
    obtain ⟨nonneg, opcodeLt, rdLt, rs1Lt, rs2Lt, modeLt⟩ := instructionOfWord_fields
      (le (slice code offset (offset + 4))) 1 (signed32 (le (slice code (offset + 4) (offset + 8))))
    have imm := signed32_mem (le_slice_lt code (offset + 4))
    simp only [Nat.add_assoc, Nat.reduceAdd] at imm
    have isExtended : (instructionOfWord (le (slice code offset (offset + 4))) 1
        (signed32 (le (slice code (offset + 4) (offset + 8))))).opcode ∈ extendedOpcodes := extended.1
    refine ⟨nonneg, .inl ⟨⟨opcodeLt, rdLt, rs1Lt, rs2Lt, modeLt, ?_⟩, ?_⟩⟩
    · rw [if_pos isExtended]
      exact ⟨rfl, imm⟩
    · rw [if_pos isExtended]
  · simp only [Except.ok.injEq, Option.some.injEq, Prod.mk.injEq] at step
    obtain ⟨rfl, rfl⟩ := step
    obtain ⟨nonneg, opcodeLt, rdLt, rs1Lt, rs2Lt, modeLt⟩ := instructionOfWord_fields
      (le (slice code offset (offset + 4))) 0 0
    refine ⟨nonneg, ?_⟩
    by_cases isExtended : (instructionOfWord (le (slice code offset (offset + 4))) 0 0).opcode ∈ extendedOpcodes
    · refine .inr ⟨⟨isExtended, ⟨rfl, rfl⟩, ⟨opcodeLt, rdLt, rs1Lt, rs2Lt, modeLt, ?_⟩⟩, rfl, ?_⟩
      · rw [if_pos isExtended]
        exact ⟨rfl, show (-2 ^ 31 : Int) ≤ 0 by norm_num, show (0 : Int) < 2 ^ 31 by norm_num⟩
      · exact Nat.lt_of_not_le fun room8 => extended ⟨isExtended, room8⟩
    · refine .inl ⟨⟨opcodeLt, rdLt, rs1Lt, rs2Lt, modeLt, ?_⟩, ?_⟩
      · rw [if_neg isExtended]
        exact ⟨rfl, rfl⟩
      · rw [if_neg isExtended]

theorem decodeLoop_cons {instructions : List Instruction} {instr : Instruction} {next : Nat}
    (step : decodeStep code offset = .ok (some (instr, next))) (done : decodeLoop code offset = .ok instructions) :
    ∃ rest, decodeLoop code next = .ok rest ∧ instructions = instr :: rest := by
  rw [decodeLoop_of_some step] at done
  cases rest : decodeLoop code next with
  | error error => rw [rest] at done; cases done
  | ok rest' => rw [rest] at done; cases done; exact ⟨rest', rfl, rfl⟩

theorem decodeLoop_decoded {instructions : List Instruction} (done : decodeLoop code offset = .ok instructions) :
    Decoded instructions := by
  induction offset using decodeLoop.induct code generalizing instructions with
  | case1 offset error step =>
      rcases decodeStep_cases code offset with ends | ⟨_, _, moved, _⟩ <;> simp_all
  | case2 offset ends =>
      rw [decodeLoop_of_none ends] at done
      cases done
      exact .nil
  | case3 offset instr next step _ ih =>
      obtain ⟨rest, restDone, rfl⟩ := decodeLoop_cons step done
      obtain ⟨nonneg, ⟨encodable, -⟩ | ⟨truncated, -, short⟩⟩ := decodeStep_decoded step
      · exact .cons encodable nonneg (ih restDone)
      · rw [decodeLoop_of_none (decodeStep_end short)] at restDone
        cases restDone
        exact .truncated truncated nonneg

/-- A decoded program with no truncated instruction encodes into no more bytes
than the loop read. -/
theorem decodeLoop_reencoded {instructions : List Instruction} (done : decodeLoop code offset = .ok instructions)
    (complete : ∀ instr ∈ instructions, Encodable instr) :
    ∃ chunks, instructions.mapM encodeInstruction = some chunks ∧ chunks.flatten.length ≤ code.length - offset := by
  induction offset using decodeLoop.induct code generalizing instructions with
  | case1 offset error step =>
      rcases decodeStep_cases code offset with ends | ⟨_, _, moved, _⟩ <;> simp_all
  | case2 offset ends =>
      rw [decodeLoop_of_none ends] at done
      cases done
      exact ⟨[], rfl, by simp⟩
  | case3 offset instr next step _ ih =>
      obtain ⟨rest, restDone, rfl⟩ := decodeLoop_cons step done
      have encodable := complete instr (List.mem_cons_self _ _)
      obtain ⟨nonneg, ⟨-, consumed⟩ | ⟨truncated, -⟩⟩ := decodeStep_decoded step
      · obtain ⟨chunk, encoded, -⟩ := encodeInstruction_some encodable nonneg
        obtain ⟨chunks, encodedRest, bound⟩ :=
          ih restDone fun other member => complete other (List.mem_cons_of_mem _ member)
        have within := (decodeStep_advances step).2
        have size := length_encodeInstruction encoded
        refine ⟨chunk :: chunks, by rw [List.mapM_cons, encoded, encodedRest]; rfl, ?_⟩
        simp only [List.flatten_cons, List.length_append]
        split_ifs at size consumed <;> omega
      · have immediate := encodable.immediate
        rw [if_pos truncated.extended] at immediate
        exact absurd immediate.1 (by rw [truncated.noImm.1]; decide)

end Decoded

/-- For every byte string, the program `decode_binary` returns is well formed:
each instruction has fields below their widths and an immediate exactly on the
extended opcodes, except that the last may be an extended opcode the code ran
out before, with `has_imm = 0`.  A program without that one is read back from
its own image, whatever the free header bytes. -/
theorem decodeBinary_decoded (data : List UInt8) {instructions : List Instruction}
    (decoded : decodeBinary data = .ok instructions) :
    Decoded instructions ∧
      ((∀ instr ∈ instructions, Encodable instr) -> ∀ version reserved : Mathlib.Vector UInt8 4,
        ∃ bytes, image instructions version reserved = some bytes ∧ decodeBinary bytes = .ok instructions) := by
  by_cases header : data.length < 16 ∨ slice data 0 4 ≠ magic
  · rw [decodeBinary, if_pos header] at decoded
    cases decoded
    refine ⟨.nil, fun complete version reserved => ?_⟩
    obtain ⟨bytes, built⟩ := image_of_chunks version reserved
      (show ([] : List Instruction).mapM encodeInstruction = some [] from rfl) (by simp)
    exact ⟨bytes, built, decodeBinary_image [] version reserved complete built⟩
  · have four : (slice data 8 12).length = 4 := by
      rw [length_slice]
      omega
    rw [decodeBinary, if_neg header, unpackU32_of_length four, ok_bind] at decoded
    refine ⟨decodeLoop_decoded decoded, fun complete version reserved => ?_⟩
    obtain ⟨chunks, encoded, bound⟩ := decodeLoop_reencoded decoded complete
    have codeLen : le (slice data 8 12) < 2 ^ 32 := le_slice_lt data 8
    rw [length_slice] at bound
    obtain ⟨bytes, built⟩ := image_of_chunks version reserved encoded (by omega)
    exact ⟨bytes, built, decodeBinary_image instructions version reserved complete built⟩

/-- A one-word code whose opcode `0x01` is extended but has no immediate after
it: the instruction is kept, with `has_imm = 0`. -/
theorem decodeBinary_decoded_cut_short :
    decodeBinary [78, 82, 76, 71, 0, 0, 0, 0, 4, 0, 0, 0, 0, 0, 0, 0, 0, 0, 0, 4] = .ok [⟨1, 0, 0, 0, 0, 0, 0⟩] ∧
      Decoded [⟨1, 0, 0, 0, 0, 0, 0⟩] := by
  have decoded : decodeBinary [78, 82, 76, 71, 0, 0, 0, 0, 4, 0, 0, 0, 0, 0, 0, 0, 0, 0, 0, 4] =
      .ok [⟨1, 0, 0, 0, 0, 0, 0⟩] := by
    rw [decodeBinary, if_neg (by decide), unpackU32_of_length (by decide), ok_bind,
      decodeLoop_of_some (decodeStep_word (by decide)), decodeLoop_of_none (decodeStep_end (by decide))]
    rfl
  exact ⟨decoded, (decodeBinary_decoded _ decoded).1⟩

end Data
end Neurlang
