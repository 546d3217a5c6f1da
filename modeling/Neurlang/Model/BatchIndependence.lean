import Neurlang.Model.Shapes
import Neurlang.Torch.Rows

namespace Neurlang
namespace Model

/-!
# A prompt's predictions do not depend on the rest of its batch

In eval mode every layer of both models treats each sample of the batch on its
own: the convolutions, the positional table, the activations, the `LayerNorm`s
and the linear layers act sample by sample, `BatchNorm1d` reads its running
statistics, the slot queries are the same row for every sample, and the
attention's batched matrix products pair each sample's queries with that
sample's keys.  So the logits a head gives prompt `b` of a batch `X` are the
logits it gives the one-prompt batch `X[b:b+1]`.
-/

open Torch Tensor
open Data (Head)

variable {α : Type} [LinearOrderedField α]

namespace MultiHeadCrossAttention

variable {dModel numHeads : Nat}

/-- The reference attention of a row of the queries, keys and values is the
row of the reference attention. -/
theorem reference_row (S : Scalars α) (attn : MultiHeadCrossAttention α dModel numHeads)
    {query query' key key' value value' : Tensor α} {b batch slots len : Nat}
    (rowQ : RowOf query b query') (rowK : RowOf key b key') (rowV : RowOf value b value')
    (queryShape : query.shape = [batch, slots, dModel]) (keyShape : key.shape = [batch, len, dModel])
    (valueShape : value.shape = [batch, len, dModel]) :
    RowOf (attn.reference S batch slots len query key value) b
      (attn.reference S 1 slots len query' key' value') := by
  unfold reference
  refine rowOf_ofFun (rowQ.lt_of queryShape) fun index inside => ?_
  obtain ⟨s, o, rfl, hs, -⟩ := inBounds_pair inside
  have q : ∀ c, attn.qProj.apply (fun i => query'.get [0, s, i]) c =
      attn.qProj.apply (fun i => query.get [b, s, i]) c :=
    attn.qProj.apply_congr fun i hi => rowQ.get [s, i] (by simp [queryShape, hs, hi])
  have k : ∀ l ∈ Finset.range len, ∀ c, attn.kProj.apply (fun i => key'.get [0, l, i]) c =
      attn.kProj.apply (fun i => key.get [b, l, i]) c := fun l inside =>
    attn.kProj.apply_congr fun i hi => rowK.get [l, i] (by simp [keyShape, Finset.mem_range.mp inside, hi])
  have v : ∀ l ∈ Finset.range len, ∀ c, attn.vProj.apply (fun i => value'.get [0, l, i]) c =
      attn.vProj.apply (fun i => value.get [b, l, i]) c := fun l inside =>
    attn.vProj.apply_congr fun i hi => rowV.get [l, i] (by simp [valueShape, Finset.mem_range.mp inside, hi])
  simp +contextual only [List.getD_cons_zero, List.getD_cons_succ, q, k, v]

/-- With dropout inactive the attention of a row is the row of the attention. -/
theorem forward_row (S : Scalars α) (attn : MultiHeadCrossAttention α dModel numHeads)
    {query query' key key' value value' : Tensor α} {b batch slots len : Nat}
    (rowQ : RowOf query b query') (rowK : RowOf key b key') (rowV : RowOf value b value')
    (queryShape : query.shape = [batch, slots, dModel]) (keyShape : key.shape = [batch, len, dModel])
    (valueShape : value.shape = [batch, len, dModel]) (wide : 0 < dModel) :
    ∃ out out', attn.forward S none query key value = .ok out ∧
      attn.forward S none query' key' value' = .ok out' ∧ out.shape = [batch, slots, dModel] ∧
      RowOf out b out' := by
  obtain ⟨out, computed, outShape, agrees⟩ := attn.forward_spec S none queryShape keyShape valueShape
    (Nat.lt_of_le_of_lt (Nat.zero_le b) (rowQ.lt_of queryShape)) wide
  obtain ⟨out', computed', -, agrees'⟩ := attn.forward_spec S none (rowQ.shape_of queryShape)
    (rowK.shape_of keyShape) (rowV.shape_of valueShape) Nat.one_pos wide
  exact ⟨out, out', computed, computed', outShape,
    (attn.reference_row S rowQ rowK rowV queryShape keyShape valueShape).of_agree (agrees rfl) (agrees' rfl)⟩

end MultiHeadCrossAttention

/-- `norm(x + y)` of two batches and of their rows `b`. -/
theorem residual_row (S : Scalars α) {size : Nat} (ln : LayerNorm α size) {x x' y y' : Tensor α}
    {b batch slots : Nat} (rowX : RowOf x b x') (rowY : RowOf y b y')
    (shape : x.shape = [batch, slots, size]) (same : y.shape = x.shape) :
    ∃ s s' z z', x.zipWith (· + ·) y = .ok s ∧ x'.zipWith (· + ·) y' = .ok s' ∧
      ln.forward S s = .ok z ∧ ln.forward S s' = .ok z' ∧ z.shape = [batch, slots, size] ∧ RowOf z b z' := by
  obtain ⟨s, s', summed, summed', sShape, rowS⟩ := zipWith_same_row (· + ·) rowX rowY same
  obtain ⟨z, z', normed, normed', zShape, rowZ⟩ :=
    ln.forward_row S rowS (show s.shape = batch :: ([slots] ++ [size]) from sShape.trans shape)
  exact ⟨s, s', z, z', summed, summed', normed, normed', zShape.trans (sShape.trans shape), rowZ⟩

/-- The eight heads on a batch of slots and on its row `b`. -/
theorem heads_row {hidden : Nat} (heads : (head : Head) -> Linear α hidden head.numClasses)
    {u v : Tensor α} {b batch slots : Nat} (row : RowOf u b v) (shape : u.shape = [batch, slots, hidden]) :
    ∃ logits rowLogits, Head.traverse (fun head => (heads head).forward u) = .ok logits ∧
      Head.traverse (fun head => (heads head).forward v) = .ok rowLogits ∧
      ∀ head, RowOf (logits head) b (rowLogits head) := by
  have shape' : u.shape = batch :: ([slots] ++ [hidden]) := shape
  have each : ∀ w : Tensor α, w.shape.getLast? = some hidden ->
      (fun head => (heads head).forward w) = fun head => .ok (w.alongLast head.numClasses (heads head).apply) :=
    fun w last => funext fun head => by rw [Linear.forward, if_pos last]
  refine ⟨_, _, by rw [each u (by simp [shape]), Head.traverse_ok],
    by rw [each v (by simp [row.shape_of shape]), Head.traverse_ok], fun head => ?_⟩
  exact row.alongLast shape' head.numClasses (heads head).apply fun _ _ o _ same => (heads head).apply_congr same o

namespace ParallelInstructionModel

/-- The cross-attention loop with dropout inactive, on a batch and on its row `b`. -/
theorem crossLayers_row {width heads : Nat} (S : Scalars α) {encoded encoded' : Tensor α}
    {b batch len count : Nat} (rowE : RowOf encoded b encoded') (encodedShape : encoded.shape = [batch, len, width])
    (wide : 0 < width) :
    ∀ (layers : List (Nat × MultiHeadCrossAttention α width heads × LayerNorm α width))
      (slots slots' : Tensor α), RowOf slots b slots' -> slots.shape = [batch, count, width] ->
      ∃ y y', layers.foldlM (fun slots layer =>
          crossLayer S none encoded slots layer.2.1 layer.2.2) slots = .ok y ∧
        layers.foldlM (fun slots layer => crossLayer S none encoded' slots layer.2.1 layer.2.2) slots' = .ok y' ∧
        y.shape = [batch, count, width] ∧ RowOf y b y'
  | [], slots, slots', row, shape => ⟨slots, slots', rfl, rfl, shape, row⟩
  | layer :: layers, slots, slots', row, shape => by
      obtain ⟨attended, attended', computed, computed', attendedShape, rowA⟩ :=
        layer.2.1.forward_row S row rowE rowE shape encodedShape encodedShape wide
      obtain ⟨_, _, y, y', summed, summed', normed, normed', yShape, rowY⟩ :=
        residual_row S layer.2.2 row rowA shape (attendedShape.trans shape.symm)
      obtain ⟨z, z', rest, rest', zShape, rowZ⟩ := crossLayers_row S rowE encodedShape wide layers y y' rowY yShape
      refine ⟨z, z', ?_, ?_, zShape, rowZ⟩
      · rw [List.foldlM_cons, crossLayer, computed, Data.ok_bind, summed, Data.ok_bind, normed, Data.ok_bind, rest]
      · rw [List.foldlM_cons, crossLayer, computed', Data.ok_bind, summed', Data.ok_bind, normed', Data.ok_bind,
          rest']

/-- The encoder in eval mode, on a batch and on its row `b`. -/
theorem encode_row (S : Scalars α) (model : ParallelInstructionModel α) {u v : Tensor α}
    {b batch len : Nat} (row : RowOf u b v) (shape : u.shape = [batch, model.embedDim, len])
    (positions : 0 < len) (wide : 0 < model.hiddenDim) :
    ∃ y y', model.encode S false u = .ok y ∧ model.encode S false v = .ok y' ∧
      y.shape = [batch, model.hiddenDim, len] ∧ RowOf y b y' := by
  have same : len + 2 * 1 - 3 + 1 = len := by omega
  obtain ⟨h1, h1', conv1, conv1', shape1, row1⟩ := model.conv1.forward_row row shape (by omega) (by norm_num)
  rw [same] at shape1
  obtain ⟨h2, h2', bn1, bn1', shape2, row2⟩ :=
    model.bn1.forward_row S (row1.map (gelu S)) (show (h1.map (gelu S)).shape = _ from shape1)
  obtain ⟨h3, h3', conv2, conv2', shape3, row3⟩ :=
    model.conv2.forward_row row2 (shape2.trans shape1) (by omega) (by norm_num)
  rw [same] at shape3
  obtain ⟨h4, h4', bn2, bn2', shape4, row4⟩ :=
    model.bn2.forward_row S (row3.map (gelu S)) (show (h3.map (gelu S)).shape = _ from shape3)
  obtain ⟨h5, h5', conv3, conv3', shape5, row5⟩ := model.conv3.forward_row row4 (shape4.trans shape3) (by omega) wide
  rw [same] at shape5
  refine ⟨h5.map (gelu S), h5'.map (gelu S), ?_, ?_, shape5, row5.map (gelu S)⟩
  · simp only [encode, conv1, bn1, conv2, bn2, conv3, Data.ok_bind]; rfl
  · simp only [encode, conv1', bn1', conv2', bn2', conv3', Data.ok_bind]; rfl

/-- The feed-forward block in eval mode, on a batch of slots and on its row `b`. -/
theorem feedForward_row (S : Scalars α) (model : ParallelInstructionModel α) {u v : Tensor α}
    {b batch slots : Nat} (row : RowOf u b v) (shape : u.shape = [batch, slots, model.hiddenDim]) :
    ∃ y y', model.feedForward S .eval u = .ok y ∧ model.feedForward S .eval v = .ok y' ∧
      y.shape = u.shape ∧ RowOf y b y' := by
  obtain ⟨h1, h1', ffn1, ffn1', shape1, row1⟩ :=
    model.ffn1.forward_row row (show u.shape = batch :: ([slots] ++ [model.hiddenDim]) from shape)
  obtain ⟨h2, h2', ffn2, ffn2', shape2, row2⟩ := model.ffn2.forward_row (row1.map (gelu S))
    (show (h1.map (gelu S)).shape = batch :: ([slots] ++ [model.hiddenDim * 4]) from shape1)
  refine ⟨h2, h2', ?_, ?_, shape2.trans shape.symm, row2⟩
  · simp only [feedForward, Mode.keep_eval, dropout_none, ffn1, Data.ok_bind, ffn2]; rfl
  · simp only [feedForward, Mode.keep_eval, dropout_none, ffn1', Data.ok_bind, ffn2']; rfl

/-- In eval mode the logits of prompt `b` of a batch are the logits of the
one-prompt batch `X[b:b+1]`. -/
theorem forward_row (S : Scalars α) (model : ParallelInstructionModel α) {x : Tensor Int}
    {batch len b : Nat} (shape : x.shape = [batch, len]) (tokens : TokensInRange x model.vocabSize)
    (lt : b < batch) (positions : 0 < len) (within : len ≤ model.maxSeqLen) (wide : 0 < model.hiddenDim) :
    ∃ logits rowLogits, model.forward S .eval x = .ok logits ∧
      model.forward S .eval (x.row b) = .ok rowLogits ∧ ∀ head, RowOf (logits head) b (rowLogits head) := by
  have rowX : RowOf x b (x.row b) := rowOf_row (by simp [shape, lt])
  obtain ⟨e, e', embedded, embedded', eShape, rowE⟩ := model.embedding.forward_row rowX shape tokens
  obtain ⟨p, p', positioned, positioned', pShape, rowP⟩ := model.posEncoding.forward_row rowE eShape within
  obtain ⟨q, q', permuted, permuted', qShape, rowQ⟩ := permute_021_row rowP pShape
  obtain ⟨h, h', encoded, encoded', hShape, rowH⟩ := model.encode_row S rowQ qShape positions wide
  obtain ⟨k, k', returned, returned', kShape, rowK⟩ := permute_021_row rowH hShape
  obtain ⟨s, s', expanded, expanded', sShape, rowS⟩ := expand_batch_row model.slotQueries_shape lt
  obtain ⟨t, t', looped, looped', tShape, rowT⟩ := crossLayers_row S rowK kShape wide
    (model.crossAttention.zip model.layerNorms).enum s s' rowS sShape
  obtain ⟨f, f', fed, fed', fShape, rowF⟩ := model.feedForward_row S rowT tShape
  obtain ⟨_, _, z, z', summed, summed', normed, normed', zShape, rowZ⟩ :=
    residual_row S model.ffnNorm rowT rowF tShape fShape
  obtain ⟨logits, rowLogits, headed, headed', rows⟩ := heads_row model.heads rowZ zShape
  refine ⟨logits, rowLogits, ?_, ?_, rows⟩
  · simp only [forward, Mode.training_eval, Mode.keep_eval]
    rw [size_zero shape, Data.ok_bind, embedded, Data.ok_bind, positioned, Data.ok_bind, permuted,
      Data.ok_bind, encoded, Data.ok_bind, returned, Data.ok_bind, expanded, Data.ok_bind, looped,
      Data.ok_bind, fed, Data.ok_bind, summed, Data.ok_bind, normed, Data.ok_bind, headed]
  · simp only [forward, Mode.training_eval, Mode.keep_eval]
    rw [size_zero (rowX.shape_of shape), Data.ok_bind, embedded', Data.ok_bind, positioned', Data.ok_bind,
      permuted', Data.ok_bind, encoded', Data.ok_bind, returned', Data.ok_bind, expanded', Data.ok_bind,
      looped', Data.ok_bind, fed', Data.ok_bind, summed', Data.ok_bind, normed', Data.ok_bind, headed']

end ParallelInstructionModel

namespace LightParallelModel

/-- The light encoder, on a batch and on its row `b`. -/
theorem encode_row (model : LightParallelModel α) {u v : Tensor α} {b batch len : Nat}
    (row : RowOf u b v) (shape : u.shape = [batch, model.embedDim, len]) (positions : 0 < len)
    (wide : 0 < model.hiddenDim) :
    ∃ y y', model.encode u = .ok y ∧ model.encode v = .ok y' ∧ y.shape = [batch, model.hiddenDim] ∧
      RowOf y b y' := by
  have same : len + 2 * 1 - 3 + 1 = len := by omega
  obtain ⟨h1, h1', conv1, conv1', shape1, row1⟩ := model.conv1.forward_row row shape (by omega) (by norm_num)
  rw [same] at shape1
  obtain ⟨h2, h2', conv2, conv2', shape2, row2⟩ :=
    model.conv2.forward_row (row1.map relu) (show (h1.map relu).shape = _ from shape1) (by omega) wide
  rw [same] at shape2
  obtain ⟨p, p', pooled, pooled', pShape, rowP⟩ :=
    adaptiveAvgPool1d_one_row (row2.map relu) (show (h2.map relu).shape = _ from shape2) wide positions
  obtain ⟨y, y', flat, flat', yShape, rowY⟩ := flatten_row rowP pShape
  refine ⟨y, y', ?_, ?_, by simp [yShape], rowY⟩
  · rw [encode, conv1, Data.ok_bind, conv2, Data.ok_bind, pooled, Data.ok_bind, flat]
  · rw [encode, conv1', Data.ok_bind, conv2', Data.ok_bind, pooled', Data.ok_bind, flat']

/-- The logits of prompt `b` of a batch are the logits of the one-prompt
batch `X[b:b+1]`. -/
theorem forward_row (model : LightParallelModel α) {x : Tensor Int} {batch len b : Nat}
    (shape : x.shape = [batch, len]) (tokens : TokensInRange x model.vocabSize) (lt : b < batch)
    (positions : 0 < len) (wide : 0 < model.hiddenDim) (slotted : 0 < model.numSlots) :
    ∃ logits rowLogits, model.forward x = .ok logits ∧ model.forward (x.row b) = .ok rowLogits ∧
      ∀ head, RowOf (logits head) b (rowLogits head) := by
  have rowX : RowOf x b (x.row b) := rowOf_row (by simp [shape, lt])
  obtain ⟨e, e', embedded, embedded', eShape, rowE⟩ := model.embedding.forward_row rowX shape tokens
  obtain ⟨q, q', permuted, permuted', qShape, rowQ⟩ := permute_021_row rowE eShape
  obtain ⟨f, f', encoded, encoded', fShape, rowF⟩ := model.encode_row rowQ qShape positions wide
  obtain ⟨p, p', projected, projected', pShape, rowP⟩ :=
    model.slotProj.forward_row rowF (show f.shape = batch :: ([] ++ [model.hiddenDim]) from fShape)
  obtain ⟨s, s', viewed, viewed', sShape, rowS⟩ := view_split_last_row rowP
    (show p.shape = [batch, model.numSlots * model.hiddenDim] from pShape) slotted
  obtain ⟨logits, rowLogits, headed, headed', rows⟩ := heads_row model.heads rowS sShape
  refine ⟨logits, rowLogits, ?_, ?_, rows⟩
  · rw [forward, size_zero shape, Data.ok_bind, embedded, Data.ok_bind, permuted, Data.ok_bind, encoded,
      Data.ok_bind, projected, Data.ok_bind, viewed, Data.ok_bind, headed]
  · rw [forward, size_zero (rowX.shape_of shape), Data.ok_bind, embedded', Data.ok_bind, permuted',
      Data.ok_bind, encoded', Data.ok_bind, projected', Data.ok_bind, viewed', Data.ok_bind, headed']

end LightParallelModel

/-- In eval mode, for a batch `(B, L)` of ids in range with `L ≥ 1` (and
`L ≤ max_seq_len`, `hidden_dim ≥ 1` for the full model; `hidden_dim ≥ 1` and
`num_slots ≥ 1` for the light one), both models return logits for the batch and
for each of its prompts `b < B` alone, and every head's logits for `X[b:b+1]`
are row `b` of its logits for `X`. -/
theorem prompt_logits_independent (S : Scalars α) (model : ParallelInstructionModel α)
    (light : LightParallelModel α) {x : Tensor Int} {batch len b : Nat} (shape : x.shape = [batch, len])
    (lt : b < batch) (positions : 1 ≤ len) (within : len ≤ model.maxSeqLen)
    (tokens : TokensInRange x model.vocabSize) (wide : 1 ≤ model.hiddenDim)
    (lightTokens : TokensInRange x light.vocabSize) (lightWide : 1 ≤ light.hiddenDim)
    (slotted : 1 ≤ light.numSlots) :
    (∃ logits rowLogits, model.forward S .eval x = .ok logits ∧
      model.forward S .eval (x.row b) = .ok rowLogits ∧ ∀ head, RowOf (logits head) b (rowLogits head)) ∧
    (∃ logits rowLogits, light.forward x = .ok logits ∧ light.forward (x.row b) = .ok rowLogits ∧
      ∀ head, RowOf (logits head) b (rowLogits head)) :=
  ⟨model.forward_row S shape tokens lt positions within wide,
    light.forward_row shape lightTokens lt positions lightWide slotted⟩

theorem prompt_logits_independent_pair :
    let model : ParallelInstructionModel ℚ := .filled 257 2 2 4 1 1 (by decide) Nat.one_pos rfl 1
    let light : LightParallelModel ℚ := .filled 257 2 2 4 (by decide) 1
    let S : Scalars ℚ := ⟨id, id, id, id, id, id⟩
    let x : Tensor Int := ⟨[2, 1], fun k => k⟩
    TokensInRange x 257 ∧
      (∃ logits rowLogits, model.forward S .eval x = .ok logits ∧
        model.forward S .eval (x.row 1) = .ok rowLogits ∧ ∀ head, RowOf (logits head) 1 (rowLogits head)) ∧
      (∃ logits rowLogits, light.forward x = .ok logits ∧ light.forward (x.row 1) = .ok rowLogits ∧
        ∀ head, RowOf (logits head) 1 (rowLogits head)) :=
  have tokens : TokensInRange ⟨[2, 1], fun k => k⟩ 257 := fun index inside => by
    have below := offset_lt inside
    simp only [Tensor.get, List.prod_cons, List.prod_nil] at below ⊢
    omega
  ⟨tokens, prompt_logits_independent _ _ _ rfl (by decide) le_rfl le_rfl tokens (by decide) tokens
    (by decide) (by decide)⟩

end Model
end Neurlang
