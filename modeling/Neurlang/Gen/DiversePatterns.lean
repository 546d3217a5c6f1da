import Neurlang.Gen.Registers
import Neurlang.Data.Instruction

namespace Neurlang
namespace Gen

/-!
# Pattern methods of `DiversePatternGenerator`

Each method builds one training program: it draws its constants, asks a fresh
`RegisterAllocator` for the registers of its variables, writes the
instructions, and returns a prompt drawn from its list with a metadata dict.
The random outcomes are arguments here, in the order the method draws them:
the shuffle of the allocator, then the method's own draws, and last the index
`random.choice` picks from a list.

Besides the allocated registers, these methods name registers by number: `r30`
as scratch, and `r0` or `r1` as the input the program reads.  The allocator is
built without an avoid list, so its shuffle may put one of these first; the
theorem at the end shows the programs that then come out.
-/

open Data (Instruction)
open Data.JsonValue

/-- What a pattern method returns: the prompt, the program and the metadata
dict. -/
structure Pattern where
  prompt : String
  instructions : List Instruction
  metadata : List (String × Data.JsonValue)

/-- `random.choice(options)` when it picks the entry at `draw`; an empty list
raises `IndexError`. -/
def choice {α : Type} (options : List α) (draw : Nat) : Except GenError α :=
  match options[draw]? with
  | some option => .ok option
  | none => .error .indexError

/-! ## Opcodes and modes -/

def opAlu : Int := 0x00
def opAlui : Int := 0x01
def opMuldiv : Int := 0x02
def opLoad : Int := 0x03
def opStore : Int := 0x04
def opBranch : Int := 0x06
def opJump : Int := 0x09
def opMov : Int := 0x1C
def opHalt : Int := 0x1D

def aluAdd : Int := 0
def aluSub : Int := 1
def aluAnd : Int := 2
def aluOr : Int := 3
def aluXor : Int := 4
def aluShl : Int := 5
def aluShr : Int := 6
def aluSar : Int := 7

def brEq : Int := 0
def brNe : Int := 1
def brLt : Int := 2
def brGe : Int := 3
def brLe : Int := 4
def brGt : Int := 5

def mdMul : Int := 0

def memByte : Int := 0

/-! ## Arithmetic -/

/-- The compound assignments of `gen_compound_arithmetic`: name, verb, and the
instructions on the variable's register. -/
def compoundPatterns : List (String × String × (Int -> List Instruction)) :=
  [("increment", "add 1 to", fun r => [⟨opAlui, aluAdd, r, r, 0, 1, 1⟩]),
   ("decrement", "subtract 1 from", fun r => [⟨opAlui, aluSub, r, r, 0, 1, 1⟩]),
   ("double", "multiply by 2", fun r => [⟨opAlu, aluAdd, r, r, r, 0, 0⟩]),
   ("square", "square", fun r => [⟨opMuldiv, mdMul, r, r, r, 0, 0⟩]),
   ("negate", "negate", fun r => [⟨opMov, 0, 30, 0, 0, 1, 0⟩, ⟨opAlu, aluSub, r, 30, r, 0, 0⟩])]

/-- `gen_compound_arithmetic`. -/
def genCompoundArithmetic (order : List Nat) (shuffled : order.Perm (candidates [])) (patternDraw : Nat)
    (val : Int) (promptDraw : Nat) : Except GenError Pattern := do
  let alloc := RegisterAllocator.init [] order shuffled
  let (patName, patVerb, patGen) ← choice compoundPatterns patternDraw
  let (rd, _) ← alloc.alloc "x"
  let prompts := [s!"{patName} {val}", s!"{patVerb} {val}", s!"{patName} the value {val}",
    s!"compute {patName} of {val}"]
  let instructions : List Instruction :=
    [⟨opMov, 0, rd, 0, 0, 1, val⟩] ++ patGen rd ++
      (if rd ≠ 0 then [⟨opMov, 0, 0, rd, 0, 0, 0⟩] else []) ++ [⟨opHalt, 0, 0, 0, 0, 0, 0⟩]
  let prompt ← choice prompts promptDraw
  pure ⟨prompt, instructions, [("category", str "arithmetic"), ("difficulty", int 1), ("operation", str patName)]⟩

/-! ## Conditionals -/

/-- `gen_if_else`. -/
def genIfElse (order : List Nat) (shuffled : order.Perm (candidates [])) (threshold : Int) (promptDraw : Nat) :
    Except GenError Pattern := do
  let alloc := RegisterAllocator.init [] order shuffled
  let prompts := [s!"return 1 if input > {threshold}, else 0", s!"check if r0 > {threshold}",
    s!"compare r0 to {threshold}", s!"is r0 greater than {threshold}?"]
  let (rt, _) ← alloc.alloc "threshold"
  let instructions : List Instruction :=
    [⟨opMov, 0, rt, 0, 0, 1, threshold⟩,
     ⟨opBranch, brLe, 0, 0, rt, 1, 3⟩,
     ⟨opMov, 0, 0, 0, 0, 1, 1⟩,
     ⟨opJump, 0, 0, 0, 0, 1, 2⟩,
     ⟨opMov, 0, 0, 0, 0, 1, 0⟩,
     ⟨opHalt, 0, 0, 0, 0, 0, 0⟩]
  let prompt ← choice prompts promptDraw
  pure ⟨prompt, instructions, [("category", str "conditional"), ("difficulty", int 2), ("pattern", str "if_else")]⟩

/-- `gen_if_chain`. -/
def genIfChain (order : List Nat) (shuffled : order.Perm (candidates [])) (t1 t2 : Int) (promptDraw : Nat) :
    Except GenError Pattern := do
  let alloc := RegisterAllocator.init [] order shuffled
  let prompts := [s!"return 0 if r0 < {t1}, 1 if < {t2}, else 2",
    s!"classify: small (<{t1}), medium (<{t2}), large", s!"three-way comparison at {t1} and {t2}"]
  let (rt1, alloc) ← alloc.alloc "t1"
  let (rt2, _) ← alloc.alloc "t2"
  let instructions : List Instruction :=
    [⟨opMov, 0, rt1, 0, 0, 1, t1⟩,
     ⟨opMov, 0, rt2, 0, 0, 1, t2⟩,
     ⟨opBranch, brGe, 0, 0, rt1, 1, 3⟩,
     ⟨opMov, 0, 0, 0, 0, 1, 0⟩,
     ⟨opJump, 0, 0, 0, 0, 1, 6⟩,
     ⟨opBranch, brGe, 0, 0, rt2, 1, 3⟩,
     ⟨opMov, 0, 0, 0, 0, 1, 1⟩,
     ⟨opJump, 0, 0, 0, 0, 1, 2⟩,
     ⟨opMov, 0, 0, 0, 0, 1, 2⟩,
     ⟨opHalt, 0, 0, 0, 0, 0, 0⟩]
  let prompt ← choice prompts promptDraw
  pure ⟨prompt, instructions, [("category", str "conditional"), ("difficulty", int 3), ("pattern", str "if_chain")]⟩

/-- `gen_clamp`. -/
def genClamp (order : List Nat) (shuffled : order.Perm (candidates [])) (lo hi : Int) (promptDraw : Nat) :
    Except GenError Pattern := do
  let alloc := RegisterAllocator.init [] order shuffled
  let prompts := [s!"clamp r0 between {lo} and {hi}", s!"bound r0 to range [{lo}, {hi}]",
    s!"constrain value to {lo}-{hi}"]
  let (rlo, alloc) ← alloc.alloc "lo"
  let (rhi, _) ← alloc.alloc "hi"
  let instructions : List Instruction :=
    [⟨opMov, 0, rlo, 0, 0, 1, lo⟩,
     ⟨opMov, 0, rhi, 0, 0, 1, hi⟩,
     ⟨opBranch, brGe, 0, 0, rlo, 1, 2⟩,
     ⟨opMov, 0, 0, rlo, 0, 0, 0⟩,
     ⟨opBranch, brLe, 0, 0, rhi, 1, 2⟩,
     ⟨opMov, 0, 0, rhi, 0, 0, 0⟩,
     ⟨opHalt, 0, 0, 0, 0, 0, 0⟩]
  let prompt ← choice prompts promptDraw
  pure ⟨prompt, instructions, [("category", str "conditional"), ("difficulty", int 2), ("pattern", str "clamp")]⟩

/-- `gen_abs_value`; `negateFirst` is the draw `random.random() < 0.5` that
picks the conditional negate over the sign-mask method. -/
def genAbsValue (order : List Nat) (shuffled : order.Perm (candidates [])) (negateFirst : Bool)
    (promptDraw : Nat) : Except GenError Pattern := do
  let alloc := RegisterAllocator.init [] order shuffled
  let prompts := ["compute absolute value of r0", "return |r0|", "make r0 positive", "abs(r0)", "absolute value"]
  let (rt, _) ← alloc.alloc "temp"
  let instructions : List Instruction :=
    if negateFirst then
      [⟨opBranch, brGe, 0, 0, 31, 1, 2⟩,
       ⟨opAlu, aluSub, 0, 31, 0, 0, 0⟩,
       ⟨opHalt, 0, 0, 0, 0, 0, 0⟩]
    else
      [⟨opMov, 0, rt, 0, 0, 0, 0⟩,
       ⟨opAlu, aluSar, rt, rt, 0, 1, 63⟩,
       ⟨opAlu, aluXor, 0, 0, rt, 0, 0⟩,
       ⟨opAlu, aluSub, 0, 0, rt, 0, 0⟩,
       ⟨opHalt, 0, 0, 0, 0, 0, 0⟩]
  let prompt ← choice prompts promptDraw
  pure ⟨prompt, instructions, [("category", str "conditional"), ("difficulty", int 2), ("pattern", str "abs")]⟩

/-! ## Memory -/

/-- `gen_copy_memory`. -/
def genCopyMemory (order : List Nat) (shuffled : order.Perm (candidates [])) (n : Int) (promptDraw : Nat) :
    Except GenError Pattern := do
  let alloc := RegisterAllocator.init [] order shuffled
  let prompts := [s!"copy {n} bytes from src to dst", s!"memcpy {n} bytes", s!"copy memory block of size {n}"]
  let (rsrc, alloc) ← alloc.alloc "src"
  let (rdst, alloc) ← alloc.alloc "dst"
  let (rcount, alloc) ← alloc.alloc "count"
  let (rval, _) ← alloc.alloc "val"
  let instructions : List Instruction :=
    [⟨opMov, 0, rsrc, 0, 0, 0, 0⟩,
     ⟨opMov, 0, rdst, 1, 0, 0, 0⟩,
     ⟨opMov, 0, rcount, 0, 0, 1, n⟩,
     ⟨opLoad, memByte, rval, rsrc, 0, 1, 0⟩,
     ⟨opStore, memByte, rval, rdst, 0, 1, 0⟩,
     ⟨opAlui, aluAdd, rsrc, rsrc, 0, 1, 1⟩,
     ⟨opAlui, aluAdd, rdst, rdst, 0, 1, 1⟩,
     ⟨opAlui, aluSub, rcount, rcount, 0, 1, 1⟩,
     ⟨opBranch, brGt, 0, rcount, 31, 1, -5⟩,
     ⟨opHalt, 0, 0, 0, 0, 0, 0⟩]
  let prompt ← choice prompts promptDraw
  pure ⟨prompt, instructions, [("category", str "memory"), ("difficulty", int 3), ("pattern", str "memcpy")]⟩

/-! ## Algorithms and bit manipulation -/

/-- `gen_power_binary`. -/
def genPowerBinary (order : List Nat) (shuffled : order.Perm (candidates [])) (base exp : Int)
    (promptDraw : Nat) : Except GenError Pattern := do
  let alloc := RegisterAllocator.init [] order shuffled
  let prompts := [s!"fast power {base}^{exp}", s!"binary exponentiation for {base}^{exp}",
    s!"power({base}, {exp}) using squaring"]
  let (rbase, alloc) ← alloc.alloc "base"
  let (rexp, alloc) ← alloc.alloc "exp"
  let (rresult, alloc) ← alloc.alloc "result"
  let (rone, _) ← alloc.alloc "one"
  let instructions : List Instruction :=
    [⟨opMov, 0, rbase, 0, 0, 1, base⟩,
     ⟨opMov, 0, rexp, 0, 0, 1, exp⟩,
     ⟨opMov, 0, rresult, 0, 0, 1, 1⟩,
     ⟨opMov, 0, rone, 0, 0, 1, 1⟩,
     ⟨opBranch, brLe, 0, rexp, 31, 1, 7⟩,
     ⟨opAlu, aluAnd, 30, rexp, rone, 0, 0⟩,
     ⟨opBranch, brEq, 0, 30, 31, 1, 1⟩,
     ⟨opMuldiv, mdMul, rresult, rresult, rbase, 0, 0⟩,
     ⟨opMuldiv, mdMul, rbase, rbase, rbase, 0, 0⟩,
     ⟨opAlu, aluShr, rexp, rexp, rone, 0, 0⟩,
     ⟨opJump, 0, 0, 0, 0, 1, -6⟩,
     ⟨opMov, 0, 0, rresult, 0, 0, 0⟩,
     ⟨opHalt, 0, 0, 0, 0, 0, 0⟩]
  let prompt ← choice prompts promptDraw
  pure ⟨prompt, instructions, [("category", str "algorithm"), ("difficulty", int 4), ("pattern", str "power_binary")]⟩

/-- `gen_bit_count`. -/
def genBitCount (order : List Nat) (shuffled : order.Perm (candidates [])) (val : Int) (promptDraw : Nat) :
    Except GenError Pattern := do
  let alloc := RegisterAllocator.init [] order shuffled
  let prompts := [s!"count bits in {val}", s!"popcount({val})", s!"number of 1s in binary of {val}",
    s!"hamming weight of {val}"]
  let (rn, alloc) ← alloc.alloc "n"
  let (rcount, alloc) ← alloc.alloc "count"
  let (rone, _) ← alloc.alloc "one"
  let instructions : List Instruction :=
    [⟨opMov, 0, rn, 0, 0, 1, val⟩,
     ⟨opMov, 0, rcount, 0, 0, 1, 0⟩,
     ⟨opMov, 0, rone, 0, 0, 1, 1⟩,
     ⟨opBranch, brEq, 0, rn, 31, 1, 5⟩,
     ⟨opAlu, aluAnd, 30, rn, rone, 0, 0⟩,
     ⟨opAlu, aluAdd, rcount, rcount, 30, 0, 0⟩,
     ⟨opAlu, aluShr, rn, rn, rone, 0, 0⟩,
     ⟨opJump, 0, 0, 0, 0, 1, -4⟩,
     ⟨opMov, 0, 0, rcount, 0, 0, 0⟩,
     ⟨opHalt, 0, 0, 0, 0, 0, 0⟩]
  let prompt ← choice prompts promptDraw
  pure ⟨prompt, instructions, [("category", str "bitwise"), ("difficulty", int 3), ("pattern", str "popcount")]⟩

/-- `gen_bit_reverse`. -/
def genBitReverse (order : List Nat) (shuffled : order.Perm (candidates [])) (val : Int) (promptDraw : Nat) :
    Except GenError Pattern := do
  let alloc := RegisterAllocator.init [] order shuffled
  let prompts := [s!"reverse bits of {val}", s!"bit reverse {val}", s!"mirror bits in {val}"]
  let (rn, alloc) ← alloc.alloc "n"
  let (rresult, alloc) ← alloc.alloc "result"
  let (rcount, alloc) ← alloc.alloc "count"
  let (rone, _) ← alloc.alloc "one"
  let instructions : List Instruction :=
    [⟨opMov, 0, rn, 0, 0, 1, val⟩,
     ⟨opMov, 0, rresult, 0, 0, 1, 0⟩,
     ⟨opMov, 0, rcount, 0, 0, 1, 8⟩,
     ⟨opMov, 0, rone, 0, 0, 1, 1⟩,
     ⟨opBranch, brLe, 0, rcount, 31, 1, 7⟩,
     ⟨opAlu, aluShl, rresult, rresult, rone, 0, 0⟩,
     ⟨opAlu, aluAnd, 30, rn, rone, 0, 0⟩,
     ⟨opAlu, aluOr, rresult, rresult, 30, 0, 0⟩,
     ⟨opAlu, aluShr, rn, rn, rone, 0, 0⟩,
     ⟨opAlui, aluSub, rcount, rcount, 0, 1, 1⟩,
     ⟨opJump, 0, 0, 0, 0, 1, -6⟩,
     ⟨opMov, 0, 0, rresult, 0, 0, 0⟩,
     ⟨opHalt, 0, 0, 0, 0, 0, 0⟩]
  let prompt ← choice prompts promptDraw
  pure ⟨prompt, instructions, [("category", str "bitwise"), ("difficulty", int 4), ("pattern", str "reverse")]⟩

/-! ## Comparisons -/

/-- `gen_bounds_check`. -/
def genBoundsCheck (order : List Nat) (shuffled : order.Perm (candidates [])) (size : Int) (promptDraw : Nat) :
    Except GenError Pattern := do
  let alloc := RegisterAllocator.init [] order shuffled
  let prompts := [s!"check if r0 < {size}", s!"bounds check for array of size {size}", s!"validate index < {size}"]
  let (rsize, _) ← alloc.alloc "size"
  let instructions : List Instruction :=
    [⟨opMov, 0, rsize, 0, 0, 1, size⟩,
     ⟨opBranch, brGe, 0, 0, rsize, 1, 2⟩,
     ⟨opMov, 0, 0, 0, 0, 1, 1⟩,
     ⟨opJump, 0, 0, 0, 0, 1, 1⟩,
     ⟨opMov, 0, 0, 0, 0, 1, 0⟩,
     ⟨opHalt, 0, 0, 0, 0, 0, 0⟩]
  let prompt ← choice prompts promptDraw
  pure ⟨prompt, instructions, [("category", str "comparison"), ("difficulty", int 1), ("pattern", str "bounds")]⟩

/-- `gen_range_check`. -/
def genRangeCheck (order : List Nat) (shuffled : order.Perm (candidates [])) (lo hi : Int) (promptDraw : Nat) :
    Except GenError Pattern := do
  let alloc := RegisterAllocator.init [] order shuffled
  let prompts := [s!"check if r0 in range [{lo}, {hi})", s!"validate {lo} <= r0 < {hi}",
    s!"range check for [{lo}, {hi})"]
  let (rlo, alloc) ← alloc.alloc "lo"
  let (rhi, _) ← alloc.alloc "hi"
  let instructions : List Instruction :=
    [⟨opMov, 0, rlo, 0, 0, 1, lo⟩,
     ⟨opMov, 0, rhi, 0, 0, 1, hi⟩,
     ⟨opBranch, brLt, 0, 0, rlo, 1, 4⟩,
     ⟨opBranch, brGe, 0, 0, rhi, 1, 3⟩,
     ⟨opMov, 0, 0, 0, 0, 1, 1⟩,
     ⟨opJump, 0, 0, 0, 0, 1, 1⟩,
     ⟨opMov, 0, 0, 0, 0, 1, 0⟩,
     ⟨opHalt, 0, 0, 0, 0, 0, 0⟩]
  let prompt ← choice prompts promptDraw
  pure ⟨prompt, instructions, [("category", str "comparison"), ("difficulty", int 2), ("pattern", str "range")]⟩

/-! ## Strings -/

/-- `gen_string_copy`. -/
def genStringCopy (order : List Nat) (shuffled : order.Perm (candidates [])) (promptDraw : Nat) :
    Except GenError Pattern := do
  let alloc := RegisterAllocator.init [] order shuffled
  let prompts := ["copy string from r0 to r1", "strcpy src to dst", "duplicate string"]
  let (rsrc, alloc) ← alloc.alloc "src"
  let (rdst, alloc) ← alloc.alloc "dst"
  let (rval, _) ← alloc.alloc "val"
  let instructions : List Instruction :=
    [⟨opMov, 0, rsrc, 0, 0, 0, 0⟩,
     ⟨opMov, 0, rdst, 1, 0, 0, 0⟩,
     ⟨opLoad, memByte, rval, rsrc, 0, 1, 0⟩,
     ⟨opStore, memByte, rval, rdst, 0, 1, 0⟩,
     ⟨opBranch, brEq, 0, rval, 31, 1, 4⟩,
     ⟨opAlui, aluAdd, rsrc, rsrc, 0, 1, 1⟩,
     ⟨opAlui, aluAdd, rdst, rdst, 0, 1, 1⟩,
     ⟨opJump, 0, 0, 0, 0, 1, -5⟩,
     ⟨opHalt, 0, 0, 0, 0, 0, 0⟩]
  let prompt ← choice prompts promptDraw
  pure ⟨prompt, instructions, [("category", str "string"), ("difficulty", int 3), ("pattern", str "strcpy")]⟩

/-- `gen_string_compare`. -/
def genStringCompare (order : List Nat) (shuffled : order.Perm (candidates [])) (promptDraw : Nat) :
    Except GenError Pattern := do
  let alloc := RegisterAllocator.init [] order shuffled
  let prompts := ["compare strings at r0 and r1", "strcmp two strings", "check if strings equal"]
  let (rs1, alloc) ← alloc.alloc "s1"
  let (rs2, alloc) ← alloc.alloc "s2"
  let (rc1, alloc) ← alloc.alloc "c1"
  let (rc2, _) ← alloc.alloc "c2"
  let instructions : List Instruction :=
    [⟨opMov, 0, rs1, 0, 0, 0, 0⟩,
     ⟨opMov, 0, rs2, 1, 0, 0, 0⟩,
     ⟨opLoad, memByte, rc1, rs1, 0, 1, 0⟩,
     ⟨opLoad, memByte, rc2, rs2, 0, 1, 0⟩,
     ⟨opBranch, brNe, 0, rc1, rc2, 1, 6⟩,
     ⟨opBranch, brEq, 0, rc1, 31, 1, 5⟩,
     ⟨opAlui, aluAdd, rs1, rs1, 0, 1, 1⟩,
     ⟨opAlui, aluAdd, rs2, rs2, 0, 1, 1⟩,
     ⟨opJump, 0, 0, 0, 0, 1, -6⟩,
     ⟨opAlu, aluSub, 0, rc1, rc2, 0, 0⟩,
     ⟨opJump, 0, 0, 0, 0, 1, 1⟩,
     ⟨opMov, 0, 0, 0, 0, 1, 0⟩,
     ⟨opHalt, 0, 0, 0, 0, 0, 0⟩]
  let prompt ← choice prompts promptDraw
  pure ⟨prompt, instructions, [("category", str "string"), ("difficulty", int 3), ("pattern", str "strcmp")]⟩

/-! ## Registers named by number

`RegisterAllocator()` is built without an avoid list, so `r0`, `r1` and `r30`
are among the registers it hands out, and the first call takes the first
register of the shuffle.  Each lemma below follows one shuffle that puts a
register the method also names by number first. -/

section Collisions

open RegisterAllocator

/-- A shuffle that puts `r0` first makes `gen_if_else` load the threshold into
its input `r0`, then compare `r0` with itself. -/
theorem genIfElse_overwrites_input (rest : List Nat) (shuffled : (0 :: rest).Perm (candidates []))
    (threshold : Int) (promptDraw : Fin 4) :
    ∃ pattern, genIfElse (0 :: rest) shuffled threshold promptDraw = .ok pattern ∧
      pattern.instructions.take 2 = [⟨opMov, 0, 0, 0, 0, 1, threshold⟩, ⟨opBranch, brLe, 0, 0, 0, 1, 3⟩] := by
  simp [genIfElse, alloc_init, bind, Except.bind, choice, pure, Except.pure]

/-- The shuffle that leaves `r0` to `r30` in order is one of them. -/
theorem genIfElse_identity_shuffle :
    ∃ pattern, genIfElse (candidates []) (List.Perm.refl _) 50 0 = .ok pattern ∧
      pattern.instructions.take 2 = [⟨opMov, 0, 0, 0, 0, 1, 50⟩, ⟨opBranch, brLe, 0, 0, 0, 1, 3⟩] :=
  genIfElse_overwrites_input (List.range' 1 30) (List.Perm.refl _) 50 0

/-- A shuffle that puts `r1` first makes `gen_copy_memory` copy `r0` into its
destination input `r1` before it reads the destination from `r1`. -/
theorem genCopyMemory_overwrites_input (rest : List Nat) (shuffled : (1 :: rest).Perm (candidates []))
    (n : Int) (promptDraw : Fin 3) :
    ∃ pattern rdst, genCopyMemory (1 :: rest) shuffled n promptDraw = .ok pattern ∧
      pattern.instructions.take 2 = [⟨opMov, 0, 1, 0, 0, 0, 0⟩, ⟨opMov, 0, rdst, 1, 0, 0, 0⟩] := by
  obtain ⟨rdst, s2, dst, kept2⟩ :=
    @alloc_ok ⟨[], 1 :: rest, shuffled, [("src", 1)], 1⟩ "dst" (List.cons_ne_nil _ _)
  obtain ⟨rcount, s3, count, kept3⟩ := @alloc_ok s2 "count" (by simp [kept2])
  obtain ⟨rval, s4, val, -⟩ := @alloc_ok s3 "val" (by simp [kept3, kept2])
  simp [genCopyMemory, alloc_init, dst, count, val, bind, Except.bind, choice, pure, Except.pure]

/-- A shuffle that puts `r30` first makes the negate case of
`gen_compound_arithmetic` keep its variable in the scratch register `r30`:
the zero it writes there replaces the value, and the program returns
`r30 - r30`. -/
theorem genCompoundArithmetic_negate_overwrites_scratch (rest : List Nat)
    (shuffled : (30 :: rest).Perm (candidates [])) (val : Int) (promptDraw : Fin 4) :
    ∃ prompt, genCompoundArithmetic (30 :: rest) shuffled 4 val promptDraw = .ok ⟨prompt,
      [⟨opMov, 0, 30, 0, 0, 1, val⟩, ⟨opMov, 0, 30, 0, 0, 1, 0⟩, ⟨opAlu, aluSub, 30, 30, 30, 0, 0⟩,
        ⟨opMov, 0, 0, 30, 0, 0, 0⟩, ⟨opHalt, 0, 0, 0, 0, 0, 0⟩],
      [("category", str "arithmetic"), ("difficulty", int 1), ("operation", str "negate")]⟩ := by
  simp [genCompoundArithmetic, compoundPatterns, alloc_init, bind, Except.bind, choice, pure, Except.pure]

/-- Built without an avoid list, the allocator hands out the registers the
methods also name by number: for every shuffle that puts `r0`, `r1` or `r30` first and every other draw,
`gen_if_else` overwrites its input `r0` with the threshold before comparing
`r0` with it, `gen_copy_memory` overwrites its destination input `r1` before
reading it, and the negate case of `gen_compound_arithmetic` holds its
variable in the scratch register `r30` it zeroes. -/
theorem allocated_registers_meet_literals :
    (∀ rest (shuffled : (0 :: rest).Perm (candidates [])) threshold (promptDraw : Fin 4),
      ∃ pattern, genIfElse (0 :: rest) shuffled threshold promptDraw = .ok pattern ∧
        pattern.instructions.take 2 = [⟨opMov, 0, 0, 0, 0, 1, threshold⟩, ⟨opBranch, brLe, 0, 0, 0, 1, 3⟩]) ∧
    (∀ rest (shuffled : (1 :: rest).Perm (candidates [])) n (promptDraw : Fin 3),
      ∃ pattern rdst, genCopyMemory (1 :: rest) shuffled n promptDraw = .ok pattern ∧
        pattern.instructions.take 2 = [⟨opMov, 0, 1, 0, 0, 0, 0⟩, ⟨opMov, 0, rdst, 1, 0, 0, 0⟩]) ∧
    (∀ rest (shuffled : (30 :: rest).Perm (candidates [])) val (promptDraw : Fin 4),
      ∃ prompt, genCompoundArithmetic (30 :: rest) shuffled 4 val promptDraw = .ok ⟨prompt,
        [⟨opMov, 0, 30, 0, 0, 1, val⟩, ⟨opMov, 0, 30, 0, 0, 1, 0⟩, ⟨opAlu, aluSub, 30, 30, 30, 0, 0⟩,
          ⟨opMov, 0, 0, 30, 0, 0, 0⟩, ⟨opHalt, 0, 0, 0, 0, 0, 0⟩],
        [("category", str "arithmetic"), ("difficulty", int 1), ("operation", str "negate")]⟩) :=
  ⟨genIfElse_overwrites_input, genCopyMemory_overwrites_input, genCompoundArithmetic_negate_overwrites_scratch⟩

end Collisions

end Gen
end Neurlang
