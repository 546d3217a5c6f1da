import Neurlang.Model.Parallel

namespace Neurlang
namespace Model

/-!
# Output shapes of the two models

Every layer of `ParallelInstructionModel.forward` keeps the batch size and the
sequence length: the kernel-3, padding-1 convolutions give back `L`, the
positional table is cut to `L`, and the heads split and merge the width `d`
only.  The slot dimension comes from `slot_queries` alone, so every head's
logits are `(B, num_slots, C)` whatever `L` is.  A convolution needs an
output channel, so the last one of either model needs `hidden_dim ≥ 1`, and the
light model's slot `view` needs `num_slots ≥ 1`.
-/

open Torch Tensor
open Data (Head)

variable {α : Type} [LinearOrderedField α]

/-- Token ids of a batch all inside the vocabulary. -/
def TokensInRange (x : Tensor Int) (vocabSize : Nat) : Prop :=
  ∀ index, InBounds x.shape index -> 0 ≤ x.get index ∧ x.get index < vocabSize

theorem shape_dropout (p : α) (keep : Option (Nat -> Bool)) (t : Tensor α) :
    (Tensor.dropout p keep t).shape = t.shape := by
  cases keep <;> rfl

theorem linear_shape {inFeatures outFeatures : Nat} (lin : Linear α inFeatures outFeatures)
    {x : Tensor α} {batch slots : Nat} (shape : x.shape = [batch, slots, inFeatures]) :
    ∃ y, lin.forward x = .ok y ∧ y.shape = [batch, slots, outFeatures] :=
  ⟨_, lin.forward_of_shape (show x.shape = [batch, slots] ++ [inFeatures] from shape), by simp [shape]⟩

theorem layerNorm_shape (S : Scalars α) {size : Nat} (ln : LayerNorm α size) {x : Tensor α}
    {batch slots : Nat} (shape : x.shape = [batch, slots, size]) :
    ∃ y, ln.forward S x = .ok y ∧ y.shape = [batch, slots, size] :=
  ⟨_, ln.forward_of_shape S (show x.shape = [batch, slots] ++ [size] from shape), by simp [shape]⟩

/-- `norm(x + f(x))` for a shape-keeping `f`, as both residual blocks compute it. -/
theorem residual_shape (S : Scalars α) {size : Nat} (ln : LayerNorm α size) {x y : Tensor α}
    {batch slots : Nat} (shape : x.shape = [batch, slots, size]) (same : y.shape = x.shape) :
    ∃ s z, x.zipWith (· + ·) y = .ok s ∧ ln.forward S s = .ok z ∧ z.shape = [batch, slots, size] := by
  obtain ⟨z, normed, zShape⟩ := layerNorm_shape S ln (show (ofFun x.shape fun index =>
    x.get (broadcastIndex x.shape index) + y.get (broadcastIndex y.shape index)).shape = _ from shape)
  exact ⟨_, z, zipWith_same _ same.symm, normed, zShape⟩

/-- The eight heads on `(B, S, hidden)` slots: one `(B, S, C)` tensor of
logits per head, `C` the head's class count. -/
theorem heads_shape {hidden : Nat} (heads : (head : Head) -> Linear α hidden head.numClasses)
    {x : Tensor α} {batch slots : Nat} (shape : x.shape = [batch, slots, hidden]) :
    ∃ logits, Head.traverse (fun head => (heads head).forward x) = .ok logits ∧
      ∀ head, (logits head).shape = [batch, slots, head.numClasses] := by
  have each : (fun head => (heads head).forward x) =
      fun head => .ok (x.alongLast head.numClasses (heads head).apply) :=
    funext fun head => (heads head).forward_of_shape (show x.shape = [batch, slots] ++ [hidden] from shape)
  exact ⟨_, by rw [each, Head.traverse_ok], fun head => by simp [shape]⟩

namespace ParallelInstructionModel

/-- One cross-attention layer keeps the slots' shape. -/
theorem crossLayer_shape {width heads : Nat} (S : Scalars α) (keep : Option (Nat -> Bool))
    {encoded slots : Tensor α} {batch len count : Nat}
    (encodedShape : encoded.shape = [batch, len, width]) (slotsShape : slots.shape = [batch, count, width])
    (nonempty : 0 < batch) (wide : 0 < width) (attn : MultiHeadCrossAttention α width heads)
    (norm : LayerNorm α width) :
    ∃ y, crossLayer S keep encoded slots attn norm = .ok y ∧ y.shape = [batch, count, width] := by
  obtain ⟨attended, computed, attendedShape, _⟩ :=
    attn.forward_spec S keep slotsShape encodedShape encodedShape nonempty wide
  obtain ⟨_, y, summed, normed, yShape⟩ :=
    residual_shape S norm slotsShape (attendedShape.trans slotsShape.symm)
  exact ⟨y, by rw [crossLayer, computed, Data.ok_bind, summed, Data.ok_bind, normed], yShape⟩

/-- The loop over the cross-attention layers keeps the slots' shape. -/
theorem crossLayers_shape {width heads : Nat} (S : Scalars α) (mode : Mode) {encoded : Tensor α}
    {batch len count : Nat} (encodedShape : encoded.shape = [batch, len, width]) (nonempty : 0 < batch)
    (wide : 0 < width) :
    ∀ (layers : List (Nat × MultiHeadCrossAttention α width heads × LayerNorm α width))
      (slots : Tensor α), slots.shape = [batch, count, width] ->
      ∃ y, layers.foldlM (fun slots layer =>
          crossLayer S (mode.keep layer.1) encoded slots layer.2.1 layer.2.2) slots = .ok y ∧
        y.shape = [batch, count, width]
  | [], slots, shape => ⟨slots, rfl, shape⟩
  | layer :: layers, slots, shape => by
      obtain ⟨y, step, yShape⟩ := crossLayer_shape S (mode.keep layer.1) encodedShape shape nonempty wide
        layer.2.1 layer.2.2
      obtain ⟨z, rest, zShape⟩ := crossLayers_shape S mode encodedShape nonempty wide layers y yShape
      exact ⟨z, by rw [List.foldlM_cons, step, Data.ok_bind, rest], zShape⟩

/-- The encoder keeps the length of a `(B, embed_dim, L)` input with `L ≥ 1`,
given more than one value per channel in training mode. -/
theorem encode_shape (S : Scalars α) (model : ParallelInstructionModel α) (training : Bool)
    {x : Tensor α} {batch len : Nat} (shape : x.shape = [batch, model.embedDim, len])
    (positions : 0 < len) (wide : 0 < model.hiddenDim) (enough : training = true -> batch * len ≠ 1) :
    ∃ y, model.encode S training x = .ok y ∧ y.shape = [batch, model.hiddenDim, len] := by
  have same : len + 2 * 1 - 3 + 1 = len := by omega
  obtain ⟨h1, conv1, shape1, _⟩ := model.conv1.forward_spec shape (by omega) (by norm_num)
  rw [same] at shape1
  obtain ⟨h2, bn1, shape2, _⟩ := model.bn1.forward_spec S training
    (show (h1.map (gelu S)).shape = _ from shape1) enough
  obtain ⟨h3, conv2, shape3, _⟩ := model.conv2.forward_spec (shape2.trans shape1) (by omega) (by norm_num)
  rw [same] at shape3
  obtain ⟨h4, bn2, shape4, _⟩ := model.bn2.forward_spec S training
    (show (h3.map (gelu S)).shape = _ from shape3) enough
  obtain ⟨h5, conv3, shape5, _⟩ := model.conv3.forward_spec (shape4.trans shape3) (by omega) wide
  rw [same] at shape5
  exact ⟨h5.map (gelu S), by simp only [encode, conv1, bn1, conv2, bn2, conv3, Data.ok_bind]; rfl,
    shape5⟩

/-- The feed-forward block keeps the slots' shape. -/
theorem feedForward_shape (S : Scalars α) (model : ParallelInstructionModel α) (mode : Mode)
    {x : Tensor α} {batch slots : Nat} (shape : x.shape = [batch, slots, model.hiddenDim]) :
    ∃ y, model.feedForward S mode x = .ok y ∧ y.shape = x.shape := by
  obtain ⟨h1, ffn1, shape1⟩ := linear_shape model.ffn1 shape
  obtain ⟨h2, ffn2, shape2⟩ := linear_shape model.ffn2
    ((shape_dropout model.dropout (mode.keep 2) (h1.map (gelu S))).trans shape1)
  exact ⟨_, by rw [feedForward, ffn1, Data.ok_bind, ffn2, Data.ok_bind]; rfl,
    (shape_dropout _ _ h2).trans (shape2.trans shape.symm)⟩

/-- A batch `(B, L)` of ids in range with `B, L ≥ 1`, `L ≤ max_seq_len` and
`hidden_dim ≥ 1` (and more than one value per channel in training mode): the
forward pass returns `(B, num_slots, C)` logits for every head. -/
theorem forward_shape (S : Scalars α) (model : ParallelInstructionModel α) (mode : Mode)
    {x : Tensor Int} {batch len : Nat} (shape : x.shape = [batch, len])
    (tokens : TokensInRange x model.vocabSize) (nonempty : 0 < batch) (positions : 0 < len)
    (within : len ≤ model.maxSeqLen) (wide : 0 < model.hiddenDim)
    (enough : mode.training = true -> batch * len ≠ 1) :
    ∃ logits, model.forward S mode x = .ok logits ∧
      ∀ head, (logits head).shape = [batch, model.numSlots, head.numClasses] := by
  have embedded := model.embedding.forward_of_inRange tokens
  obtain ⟨p, positioned, pShape, _⟩ := model.posEncoding.forward_spec
    (show (ofFun (x.shape ++ [model.embedDim]) _).shape = [batch, len, model.embedDim] by simp [shape])
    within
  obtain ⟨h, encoded, hShape⟩ := model.encode_shape S mode.training
    (show (ofFun [batch, model.embedDim, len] _).shape = _ from rfl) positions wide enough
  obtain ⟨slots, looped, slotsShape⟩ := crossLayers_shape S mode
    (show (ofFun [batch, len, model.hiddenDim] _).shape = _ from rfl) nonempty wide
    (model.crossAttention.zip model.layerNorms).enum _
    (show (ofFun [batch, model.numSlots, model.hiddenDim] _).shape = _ from rfl)
  obtain ⟨f, fed, fShape⟩ := model.feedForward_shape S mode slotsShape
  obtain ⟨_, z, summed, normed, zShape⟩ := residual_shape S model.ffnNorm slotsShape fShape
  obtain ⟨logits, headed, logitsShape⟩ := heads_shape model.heads zShape
  refine ⟨logits, ?_, logitsShape⟩
  rw [forward, size_zero shape, Data.ok_bind, embedded, Data.ok_bind, positioned, Data.ok_bind,
    permute_021 pShape, Data.ok_bind, encoded, Data.ok_bind, permute_021 hShape, Data.ok_bind,
    expand_batch model.slotQueries_shape, Data.ok_bind, looped, Data.ok_bind, fed, Data.ok_bind,
    summed, Data.ok_bind, normed, Data.ok_bind, headed]
end ParallelInstructionModel

namespace LightParallelModel

/-- The light encoder pools a `(B, embed_dim, L)` input with `L ≥ 1` to one
`hidden_dim` vector per prompt. -/
theorem encode_shape (model : LightParallelModel α) {x : Tensor α} {batch len : Nat}
    (shape : x.shape = [batch, model.embedDim, len]) (positions : 0 < len) (wide : 0 < model.hiddenDim) :
    ∃ y, model.encode x = .ok y ∧ y.shape = [batch, model.hiddenDim] := by
  have same : len + 2 * 1 - 3 + 1 = len := by omega
  obtain ⟨h1, conv1, shape1, _⟩ := model.conv1.forward_spec shape (by omega) (by norm_num)
  rw [same] at shape1
  obtain ⟨h2, conv2, shape2, _⟩ := model.conv2.forward_spec
    (show (h1.map relu).shape = _ from shape1) (by omega) wide
  rw [same] at shape2
  obtain ⟨pooled, pool, pooledShape, _⟩ := adaptiveAvgPool1d_one
    (show (h2.map relu).shape = _ from shape2) wide positions
  refine ⟨_, by rw [encode, conv1, Data.ok_bind, conv2, Data.ok_bind, pool, Data.ok_bind,
    flatten_three pooledShape], by simp⟩

/-- A batch `(B, L)` of ids in range with `B, L ≥ 1`, `hidden_dim ≥ 1` and
`num_slots ≥ 1`: the forward pass returns `(B, num_slots, C)` logits for every
head. -/
theorem forward_shape (model : LightParallelModel α) {x : Tensor Int} {batch len : Nat}
    (shape : x.shape = [batch, len]) (tokens : TokensInRange x model.vocabSize) (nonempty : 0 < batch)
    (positions : 0 < len) (wide : 0 < model.hiddenDim) (slotted : 0 < model.numSlots) :
    ∃ logits, model.forward x = .ok logits ∧
      ∀ head, (logits head).shape = [batch, model.numSlots, head.numClasses] := by
  have embedded := model.embedding.forward_of_inRange tokens
  obtain ⟨features, encoded, fShape⟩ := model.encode_shape
    (show (ofFun [batch, model.embedDim, len] _).shape = _ from rfl) positions wide
  let projected := features.alongLast (model.numSlots * model.hiddenDim) model.slotProj.apply
  have viewed := view_split_last (show projected.shape = [batch, model.numSlots * model.hiddenDim] by
    simp [projected, fShape]) nonempty slotted
  obtain ⟨logits, headed, logitsShape⟩ := heads_shape model.heads
    (show (⟨[batch, model.numSlots, model.hiddenDim], projected.data⟩ : Tensor α).shape = _ from rfl)
  refine ⟨logits, ?_, logitsShape⟩
  rw [forward, size_zero shape, Data.ok_bind, embedded, Data.ok_bind,
    permute_021 (show (ofFun (x.shape ++ [model.embedDim]) _).shape = [batch, len, model.embedDim] by
      simp [shape]), Data.ok_bind, encoded, Data.ok_bind,
    model.slotProj.forward_of_shape (show features.shape = [batch] ++ [model.hiddenDim] from fShape),
    Data.ok_bind, viewed, Data.ok_bind, headed]

end LightParallelModel

/-- A batch `(B, L)` of ids in range with `B, L ≥ 1`: the full model, with
`L ≤ max_seq_len`, `hidden_dim ≥ 1` and `B * L ≥ 2` in training mode, and the
light model, with `hidden_dim ≥ 1` and `num_slots ≥ 1`, both return all eight
heads with `(B, num_slots, C)` logits. -/
theorem heads_logits_shape (S : Scalars α) (model : ParallelInstructionModel α) (mode : Mode)
    (light : LightParallelModel α) {x : Tensor Int} {batch len : Nat} (shape : x.shape = [batch, len])
    (nonempty : 1 ≤ batch) (positions : 1 ≤ len) (within : len ≤ model.maxSeqLen)
    (tokens : TokensInRange x model.vocabSize) (wide : 1 ≤ model.hiddenDim)
    (enough : mode.training = true -> 2 ≤ batch * len) (lightTokens : TokensInRange x light.vocabSize)
    (lightWide : 1 ≤ light.hiddenDim) (slotted : 1 ≤ light.numSlots) :
    (∃ logits, model.forward S mode x = .ok logits ∧
      ∀ head, (logits head).shape = [batch, model.numSlots, head.numClasses]) ∧
    (∃ logits, light.forward x = .ok logits ∧
      ∀ head, (logits head).shape = [batch, light.numSlots, head.numClasses]) :=
  ⟨model.forward_shape S mode shape tokens nonempty positions within wide
      fun training => by have := enough training; omega,
    light.forward_shape shape lightTokens nonempty positions lightWide slotted⟩

theorem heads_logits_shape_single :
    let model : ParallelInstructionModel ℚ := .filled 257 2 2 64 1 1 (by decide) Nat.one_pos rfl 0
    let light : LightParallelModel ℚ := .filled 257 2 2 64 (by decide) 0
    let S : Scalars ℚ := ⟨id, id, id, id, id, id⟩
    let x : Tensor Int := ⟨[1, 1], fun _ => 0⟩
    TokensInRange x 257 ∧
      (∃ logits, model.forward S .eval x = .ok logits ∧
        ∀ head, (logits head).shape = [1, 64, head.numClasses]) ∧
      (∃ logits, light.forward x = .ok logits ∧
        ∀ head, (logits head).shape = [1, 64, head.numClasses]) :=
  have tokens : TokensInRange ⟨[1, 1], fun _ => 0⟩ 257 := fun _ _ => ⟨le_rfl, show (0 : Int) < (257 : Nat) by decide⟩
  ⟨tokens, heads_logits_shape _ _ .eval _ rfl le_rfl le_rfl le_rfl tokens (by decide) (by decide) tokens
    (by decide) (by decide)⟩

/-- Models of `hidden_dim = 0` or no slots on one token: the last
convolution of the full model (`Conv1d(512, 0)`) and of the light model
(`Conv1d(128, 0)`) has no output channels, and the convolution raises on its
weight of size 0 in dimension 0; the light model with no slots gets zero
elements for its `view` to `(1, 0, -1)` and raises there. -/
theorem degenerate_models_raise :
    let model : ParallelInstructionModel ℚ := .filled 257 2 0 1 1 1 (by decide) Nat.one_pos rfl 0
    let narrow : LightParallelModel ℚ := .filled 257 2 0 1 (by decide) 0
    let slotless : LightParallelModel ℚ := .filled 257 2 2 0 (by decide) 0
    let S : Scalars ℚ := ⟨id, id, id, id, id, id⟩
    let x : Tensor Int := ⟨[1, 1], fun _ => 0⟩
    TokensInRange x 257 ∧ model.forward S .eval x = .error .runtimeError ∧
      narrow.forward x = .error .runtimeError ∧ slotless.forward x = .error .runtimeError :=
  ⟨fun _ _ => ⟨le_rfl, show (0 : Int) < (257 : Nat) by decide⟩, rfl, rfl, rfl⟩

end Model
end Neurlang
