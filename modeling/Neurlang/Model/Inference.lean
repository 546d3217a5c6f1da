import Neurlang.Model.Shapes
import Neurlang.Model.Tokenize
import Neurlang.Train.Evaluate

namespace Neurlang
namespace Model

/-!
# `predict` and the prompt loop of `test_inference.py`

`predict` runs the forward pass and takes `torch.argmax(v, dim=-1)` of every
head's logits.  `test_pytorch_inference` builds a model with
`max_seq_len = 256`, and for each prompt turns `tokenize(prompt)` into a
tensor, predicts in eval mode, and renders the `NUM_SLOTS` slots of the one row
with `decode_instruction`, keeping the lines that are truthy.

For every model of the sizes the script builds (`num_slots = 64`,
`max_seq_len ≥ 256`, `hidden_dim ≥ 1`) and every prompt that encodes to UTF-8,
the loop returns, and its lines are those `decode_instruction` renders from the
first largest class of each head at each slot.  A prompt is a `String`, which
holds no lone surrogate: on a `str` with one, `tokenize` raises
`UnicodeEncodeError`; the script's seven prompts have none.  Those classes lie below the heads' class counts, so
the opcode and register names always come from the tables, never from the
`OP{n}` and `r{n}` fallbacks, and every immediate shown lies in `[-128, 127]`.
-/

open Torch Tensor
open Data (Head numSlots decodeInstruction opcodeNames registerNames)

variable {α : Type} [LinearOrderedField α]

namespace ParallelInstructionModel

/-- `predict(x)`: the class `torch.argmax(v, dim=-1)` picks in every head's
logits, in the mode the model is in. -/
def predict (S : Scalars α) (model : ParallelInstructionModel α) (mode : Mode) (x : Tensor Int) :
    Except TorchError (Head -> Tensor Int) := do
  let logits ← model.forward S mode x
  Head.traverse fun head => Train.argmax (logits head)

/-- On a batch the forward pass takes, `predict` returns, for every head, the
first largest class of each slot's logits. -/
theorem predict_spec (S : Scalars α) (model : ParallelInstructionModel α) (mode : Mode)
    {x : Tensor Int} {batch len : Nat} (shape : x.shape = [batch, len])
    (tokens : TokensInRange x model.vocabSize) (nonempty : 0 < batch) (positions : 0 < len)
    (within : len ≤ model.maxSeqLen) (wide : 0 < model.hiddenDim)
    (enough : mode.training = true -> batch * len ≠ 1) :
    ∃ logits pred, model.forward S mode x = .ok logits ∧ model.predict S mode x = .ok pred ∧
      ∀ head, (pred head).shape = [batch, model.numSlots] ∧
        ∀ k < batch * model.numSlots, (pred head).data k = Train.predicted logits head k := by
  obtain ⟨logits, computed, logitShape⟩ := model.forward_shape S mode shape tokens nonempty positions within wide enough
  have picks : ∀ head, ∃ pred, Train.argmax (logits head) = .ok pred ∧ pred.shape = [batch, model.numSlots] ∧
      ∀ k < batch * model.numSlots, pred.data k = Train.predicted logits head k := fun head =>
    Train.argmax_slots (logitShape head) (Nat.zero_lt_of_lt (Head.one_lt_numClasses head))
  choose pred picked predShape predData using picks
  refine ⟨logits, pred, computed, ?_, fun head => ⟨predShape head, predData head⟩⟩
  simp only [predict, computed, picked, Data.ok_bind, Data.Head.traverse_ok]

end ParallelInstructionModel

theorem mapM_eq_ok_map {ε β γ : Type} {f : β -> Except ε γ} {g : β -> γ} :
    ∀ {items : List β}, (∀ item ∈ items, f item = .ok (g item)) -> items.mapM f = .ok (items.map g)
  | [], _ => rfl
  | item :: rest, each => by
      rw [List.mapM_cons, each item (List.mem_cons_self _ _),
        mapM_eq_ok_map fun other member => each other (List.mem_cons_of_mem _ member)]
      rfl

namespace testPytorchInference

/-- `torch.tensor(tokenize(prompt), dtype=torch.long)`: the one row of ids,
row-major. -/
def tokens (prompt : String) : Tensor Int :=
  ⟨[(tokenize prompt 256).length, 256],
    fun k => (((tokenize prompt 256).getD (k / 256) []).getD (k % 256) 0 : Int)⟩

/-- `output[head][0].numpy()[i]`: the class at slot `i` of the first row; an
index past the row raises `IndexError`. -/
def column (output : Head -> Tensor Int) (head : Head) (i : Nat) : Except TorchError Nat :=
  if i < (output head).shape.getD 1 0 then .ok ((output head).get [0, i]).toNat else .error .indexError

/-- The body of the prompt loop: predict in eval mode, render slots `0` to
`NUM_SLOTS - 1` with `decode_instruction`, and keep the truthy results. -/
def instructions (S : Scalars α) (model : ParallelInstructionModel α) (prompt : String) :
    Except TorchError (List String) := do
  let output ← model.predict S .eval (tokens prompt)
  let rendered ← (List.range numSlots).mapM fun i => do
    pure (decodeInstruction (← column output .valid i) (← column output .opcode i) (← column output .mode i)
      (← column output .rd i) (← column output .rs1 i) (← column output .rs2 i) (← column output .hasImm i)
      (← column output .immBin i))
  pure (rendered.filterMap fun instr => instr.filter fun line => !line.isEmpty)

/-- Every id of a prompt's row is a byte or the padding id `256`. -/
theorem tokens_inRange (prompt : String) {vocabSize : Nat} (vocab : 256 < vocabSize) :
    TokensInRange (tokens prompt) vocabSize := by
  intro index inside
  unfold InBounds at inside
  rcases inside with _ | @⟨_, i, _, _, first, _ | @⟨_, j, _, _, inRow, _ | _⟩⟩
  obtain rfl : i = 0 := Nat.lt_one_iff.mp first
  have bounded := getD_padTokens_le prompt 256 j
  simp only [Tensor.get, tokens, tokenize, offset, List.length_singleton, List.prod_cons, List.prod_nil,
    zero_mul, mul_one, add_zero, zero_add, Nat.div_eq_of_lt inRow, Nat.mod_eq_of_lt inRow, List.getD_cons_zero]
  omega

/-- The line `decode_instruction` renders for slot `i` from the class
`cls head i` of every head. -/
def renderedSlot (cls : Head -> Nat -> Nat) (i : Nat) : Option String :=
  decodeInstruction (cls .valid i) (cls .opcode i) (cls .mode i) (cls .rd i) (cls .rs1 i) (cls .rs2 i)
    (cls .hasImm i) (cls .immBin i)

/-- For every model of the sizes `test_pytorch_inference` builds and every
prompt that encodes to UTF-8, the loop returns at most `NUM_SLOTS` lines: those
`decode_instruction` renders from the first largest class of every head at each
slot of the forward pass's logits.  Each line names its opcode and registers
from the tables and shows its mode below 8 and any immediate in
`[-128, 127]`. -/
theorem instructions_spec (S : Scalars α) (model : ParallelInstructionModel α) (prompt : String)
    (slots : model.numSlots = numSlots) (within : 256 ≤ model.maxSeqLen) (wide : 0 < model.hiddenDim) :
    ∃ logits lines, model.forward S .eval (tokens prompt) = .ok logits ∧
      instructions S model prompt = .ok lines ∧
      ∃ cls : Head -> Nat -> Nat,
        (∀ head, ∀ i < numSlots, Train.FirstLargest head.numClasses (Train.slotLogits logits head i) (cls head i)) ∧
      lines = (List.range numSlots).filterMap (renderedSlot cls) ∧ lines.length ≤ numSlots ∧
      ∀ line ∈ lines, ∃ opname ∈ opcodeNames, ∃ mode < 8, ∃ rdName ∈ registerNames, ∃ rs1Name ∈ registerNames,
        (∃ rs2Name ∈ registerNames, line = s!"{opname}.{mode} {rdName}, {rs1Name}, {rs2Name}") ∨
        ∃ imm : Int, -128 ≤ imm ∧ imm < 128 ∧ line = s!"{opname}.{mode} {rdName}, {rs1Name}, #{imm}" := by
  obtain ⟨logits, pred, computed, predicted, predShape⟩ := model.predict_spec S .eval
    (show (tokens prompt).shape = [1, 256] from rfl) (tokens_inRange prompt model.padding_lt)
    Nat.one_pos (by norm_num) within wide (fun training => absurd training (by decide))
  let cls : Head -> Nat -> Nat := fun head i => Train.argmaxOf head.numClasses (Train.slotLogits logits head i)
  have classes : ∀ head, ∀ i < numSlots, cls head i < head.numClasses := fun head _ _ =>
    (Train.argmaxOf_spec _ (Nat.zero_lt_of_lt (Head.one_lt_numClasses head))).1
  have read : ∀ head, ∀ i < numSlots, column pred head i = .ok (cls head i) := by
    intro head i below
    have rowShape := (predShape head).1
    have inRow : i < 1 * model.numSlots := by omega
    rw [column, rowShape, slots, if_pos (by simpa using below)]
    simp only [Tensor.get, rowShape, offset, List.prod_cons, List.prod_nil, zero_mul, mul_one, add_zero, zero_add,
      (predShape head).2 i inRow, Train.predicted, Int.toNat_natCast]
    rfl
  have rendered : (List.range numSlots).mapM (fun i => do
      pure (decodeInstruction (← column pred .valid i) (← column pred .opcode i) (← column pred .mode i)
        (← column pred .rd i) (← column pred .rs1 i) (← column pred .rs2 i) (← column pred .hasImm i)
        (← column pred .immBin i)) : Nat -> Except TorchError (Option String)) =
      .ok ((List.range numSlots).map (renderedSlot cls)) := by
    refine mapM_eq_ok_map fun i member => ?_
    have below := List.mem_range.mp member
    simp only [read _ i below, Data.ok_bind]
    rfl
  have names : ∀ i < numSlots, ∀ line, renderedSlot cls i = some line -> line.isEmpty = false ∧
      ∃ opname ∈ opcodeNames, ∃ mode < 8, ∃ rdName ∈ registerNames, ∃ rs1Name ∈ registerNames,
        (∃ rs2Name ∈ registerNames, line = s!"{opname}.{mode} {rdName}, {rs1Name}, {rs2Name}") ∨
        ∃ imm : Int, -128 ≤ imm ∧ imm < 128 ∧ line = s!"{opname}.{mode} {rdName}, {rs1Name}, #{imm}" := by
    intro i below line slot
    obtain ⟨nonempty, opname, opnameMem, rdName, rdMem, rs1Name, rs1Mem, form⟩ :=
      Data.decodeInstruction_names slot (classes .opcode i below) (classes .rd i below) (classes .rs1 i below)
        (classes .rs2 i below) (classes .immBin i below)
    exact ⟨nonempty, opname, opnameMem, _, classes .mode i below, rdName, rdMem, rs1Name, rs1Mem, form⟩
  have kept : ((List.range numSlots).map (renderedSlot cls)).filterMap
      (fun instr => instr.filter fun line => !line.isEmpty) = (List.range numSlots).filterMap (renderedSlot cls) := by
    rw [List.filterMap_map]
    refine List.filterMap_congr fun i member => ?_
    cases slot : renderedSlot cls i with
    | none => simp only [Function.comp_apply, slot, Option.filter]
    | some line => simp [Option.filter, slot, (names i (List.mem_range.mp member) line slot).1]
  refine ⟨logits, _, computed, ?_, cls, fun head i _ =>
    (Train.argmaxOf_eq_iff _ (Nat.zero_lt_of_lt (Head.one_lt_numClasses head)) _).mp rfl, rfl,
    (List.length_filterMap_le _ _).trans (List.length_range _).le, fun line member => ?_⟩
  · simp only [instructions, predicted, Data.ok_bind, rendered, kept]
    rfl
  · obtain ⟨i, member, slot⟩ := List.mem_filterMap.mp member
    exact (names i (List.mem_range.mp member) line slot).2

/-- A model of every size the script's constructor takes, but one-wide and
one-headed, on a short prompt. -/
theorem instructions_spec_filled :
    let model : ParallelInstructionModel ℚ := .filled 257 2 2 64 1 256 (by decide) Nat.one_pos rfl 0
    let S : Scalars ℚ := ⟨id, id, id, id, id, id⟩
    model.numSlots = numSlots ∧ 256 ≤ model.maxSeqLen ∧ 0 < model.hiddenDim ∧
      ∃ lines, instructions S model "add 2 and 3" = .ok lines ∧ lines.length ≤ numSlots := by
  intro model S
  obtain ⟨_, lines, _, ran, _, _, _, short, _⟩ := instructions_spec S model "add 2 and 3" rfl le_rfl (by decide)
  exact ⟨rfl, le_rfl, by decide, lines, ran, short⟩

end testPytorchInference

end Model
end Neurlang
