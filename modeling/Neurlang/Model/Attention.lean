import Neurlang.Torch.Layers

namespace Neurlang
namespace Model

/-!
# `MultiHeadCrossAttention`

The forward pass projects the slot queries and the encoder output, splits each
projection into `num_heads` heads with `view` and `transpose`, attends with a
softmax over the input positions, and merges the heads back with `transpose`,
`contiguous` and `view` before the output projection.  The reference below
says what this computes head by head, on coordinates `j * head_dim` to
`(j + 1) * head_dim - 1` of each projection; the theorem at the end proves that
the view and transpose arithmetic lands on exactly those coordinates.
-/

open Torch Tensor

variable {α : Type} [LinearOrderedField α]

/-- `MultiHeadCrossAttention(d_model, num_heads, dropout)`.  The constructor
asserts `d_model % num_heads == 0`, after a `%` that raises for `num_heads = 0`. -/
structure MultiHeadCrossAttention (α : Type) (dModel numHeads : Nat) where
  qProj : Linear α dModel dModel
  kProj : Linear α dModel dModel
  vProj : Linear α dModel dModel
  outProj : Linear α dModel dModel
  dropout : α
  heads_pos : 0 < numHeads
  heads_dvd : dModel % numHeads = 0

namespace MultiHeadCrossAttention

variable {dModel numHeads : Nat}

/-- The module with every parameter equal to `value`. -/
def filled (value : α) (heads_pos : 0 < numHeads) (heads_dvd : dModel % numHeads = 0) :
    MultiHeadCrossAttention α dModel numHeads :=
  ⟨Linear.filled value, Linear.filled value, Linear.filled value, Linear.filled value, value,
    heads_pos, heads_dvd⟩

/-- `x.view(batch_size, -1, num_heads, head_dim).transpose(1, 2)`: the heads of
a projection, as the forward pass splits each of `q`, `k` and `v`. -/
def splitHeads (x : Tensor α) (batchSize heads width : Nat) : Except TorchError (Tensor α) := do
  let viewed ← x.view [batchSize, -1, heads, width]
  viewed.transpose 1 2

/-- `out.transpose(1, 2).contiguous().view(batch_size, -1, d_model)`. -/
def mergeHeads (out : Tensor α) (batchSize dModel : Nat) : Except TorchError (Tensor α) := do
  let swapped ← out.transpose 1 2
  swapped.view [batchSize, -1, dModel]

/-- `forward(query, key, value)`; `keep` are the dropout draws, `none` in
eval mode. -/
def forward (S : Scalars α) (attn : MultiHeadCrossAttention α dModel numHeads)
    (keep : Option (Nat -> Bool)) (query key value : Tensor α) : Except TorchError (Tensor α) := do
  let batchSize ← query.size 0
  let headDim := dModel / numHeads
  let q ← splitHeads (← attn.qProj.forward query) batchSize numHeads headDim
  let k ← splitHeads (← attn.kProj.forward key) batchSize numHeads headDim
  let v ← splitHeads (← attn.vProj.forward value) batchSize numHeads headDim
  let scores := (← matmul q (← k.transpose (-2) (-1))).map (· / S.sqrt (headDim : Nat))
  let attnWeights := Tensor.dropout attn.dropout keep (← softmax S scores (-1))
  let out ← mergeHeads (← matmul attnWeights v) batchSize dModel
  attn.outProj.forward out

omit [LinearOrderedField α] in
/-- Splitting `(B, n, heads * width)` into heads: entry `t` of head `j` at
position `i` is coordinate `j * width + t` of position `i`. -/
theorem splitHeads_spec {x : Tensor α} {batch len heads width : Nat}
    (shape : x.shape = [batch, len, heads * width]) (pos : 0 < batch * (heads * width)) :
    ∃ y, splitHeads x batch heads width = .ok y ∧ y.shape = [batch, heads, len, width] ∧
      ∀ b j i t, b < batch -> j < heads -> i < len -> t < width ->
        y.get [b, j, i, t] = x.get [b, i, j * width + t] := by
  have viewed : x.view [(batch : Int), -1, heads, width] = .ok ⟨[batch, len, heads, width], x.data⟩ :=
    view_infer [batch] [heads, width] (by simp [numel, shape]; ring)
      (by simpa only [List.prod_cons, List.prod_nil, mul_one] using pos)
  refine ⟨_, by rw [splitHeads, viewed, Data.ok_bind]; exact transpose_of_wrapDim rfl rfl, by rfl, ?_⟩
  intro b j i t hb hj hi ht
  rw [get_ofFun _ (by simp [swapAt, hb, hj, hi, ht])]
  simp only [swapAt, Tensor.get, shape]
  simp [offset]

omit [LinearOrderedField α] in
/-- Merging heads `(B, heads, n, width)` back: coordinate `c` of position `i`
is entry `c % width` of head `c / width`. -/
theorem mergeHeads_spec {o : Tensor α} {batch heads len width : Nat}
    (shape : o.shape = [batch, heads, len, width]) (pos : 0 < batch * (heads * width)) :
    ∃ z, mergeHeads o batch (heads * width) = .ok z ∧ z.shape = [batch, len, heads * width] ∧
      ∀ b i c, b < batch -> i < len -> c < heads * width ->
        z.get [b, i, c] = o.get [b, c / width, i, c % width] := by
  let swapped : Tensor α := ofFun [batch, len, heads, width] fun index => o.get (swapAt index 1 2)
  have transposed : o.transpose 1 2 = .ok swapped := by
    rw [transpose_of_wrapDim (by rw [shape]; rfl) (by rw [shape]; rfl), shape]
    rfl
  have viewed : swapped.view [(batch : Int), -1, ((heads * width : Nat) : Int)] =
      .ok ⟨[batch, len, heads * width], swapped.data⟩ :=
    view_infer [batch] [heads * width] (by simp [numel, swapped]; ring)
      (by simpa only [List.prod_cons, List.prod_nil, mul_one] using pos)
  refine ⟨⟨[batch, len, heads * width], swapped.data⟩,
    by simp only [mergeHeads, transposed, Data.ok_bind]; exact viewed, rfl, ?_⟩
  intro b i c hb hi hc
  have positive : 0 < width := Nat.pos_of_ne_zero fun zero => by simp [zero] at hc
  have inside : InBounds [batch, len, heads, width] [b, i, c / width, c % width] := by
    simp [hb, hi, Nat.div_lt_iff_lt_mul positive, Nat.mod_lt _ positive, hc]
  calc (⟨[batch, len, heads * width], swapped.data⟩ : Tensor α).get [b, i, c]
      = swapped.get [b, i, c / width, c % width] := by
        simp only [Tensor.get, swapped, offset]
        simp [Nat.div_add_mod']
    _ = o.get [b, c / width, i, c % width] := by
        rw [get_ofFun _ inside]
        rfl

/-- Multi-head attention written head by head: for sample `b` and slot `s`,
head `j` takes softmax weights over the `len` positions of the scaled dot
products of coordinates `j * hd .. (j + 1) * hd - 1` of the query and key
projections, sums the value projections' same coordinates with them, and the
concatenated heads go through `out_proj`. -/
def reference (S : Scalars α) (attn : MultiHeadCrossAttention α dModel numHeads)
    (batch slots len : Nat) (query key value : Tensor α) : Tensor α :=
  let hd := dModel / numHeads
  let qp := fun b s c => attn.qProj.apply (fun i => query.get [b, s, i]) c
  let kp := fun b l c => attn.kProj.apply (fun i => key.get [b, l, i]) c
  let vp := fun b l c => attn.vProj.apply (fun i => value.get [b, l, i]) c
  let score := fun b j s l =>
    (∑ t ∈ Finset.range hd, qp b s (j * hd + t) * kp b l (j * hd + t)) / S.sqrt (hd : Nat)
  let head := fun b s c =>
    ∑ l ∈ Finset.range len,
      S.exp (score b (c / hd) s l) / (∑ l' ∈ Finset.range len, S.exp (score b (c / hd) s l')) *
        vp b l (c / hd * hd + c % hd)
  ofFun [batch, slots, dModel] fun index =>
    attn.outProj.apply (fun c => head (index.getD 0 0) (index.getD 1 0) c) (index.getD 2 0)

theorem head_coord_lt {j t heads width : Nat} (hj : j < heads) (ht : t < width) :
    j * width + t < heads * width :=
  calc j * width + t < j * width + width := by omega
    _ = (j + 1) * width := by ring
    _ ≤ heads * width := Nat.mul_le_mul_right _ hj

/-- The forward pass on queries `(B, S, d)` and on keys and values `(B, L, d)`,
for `B ≥ 1` and `d ≥ 1`, returns a `(B, S, d)` tensor, and with dropout
inactive it is the reference attention. -/
theorem forward_spec (S : Scalars α) (attn : MultiHeadCrossAttention α dModel numHeads)
    (keep : Option (Nat -> Bool)) {batch slots len : Nat} {query key value : Tensor α}
    (queryShape : query.shape = [batch, slots, dModel]) (keyShape : key.shape = [batch, len, dModel])
    (valueShape : value.shape = [batch, len, dModel]) (nonempty : 0 < batch) (wide : 0 < dModel) :
    ∃ out, attn.forward S keep query key value = .ok out ∧ out.shape = [batch, slots, dModel] ∧
      (keep = none -> Agree out (attn.reference S batch slots len query key value)) := by
  generalize headDim : dModel / numHeads = hd
  have split : dModel = numHeads * hd := by
    rw [← headDim, Nat.mul_div_cancel' (Nat.dvd_of_mod_eq_zero attn.heads_dvd)]
  have pos : 0 < batch * (numHeads * hd) := split ▸ Nat.mul_pos nonempty wide
  have size : query.size 0 = .ok batch := size_zero queryShape
  have projected : ∀ {x : Tensor α} {n : Nat} (lin : Linear α dModel dModel),
      x.shape = [batch, n, dModel] -> (x.alongLast dModel lin.apply).shape = [batch, n, numHeads * hd] := by
    intro x n lin shape
    rw [shape_alongLast, shape, split]
    rfl
  obtain ⟨q, splitQ, qShape, getQ⟩ := splitHeads_spec (projected attn.qProj queryShape) pos
  obtain ⟨k, splitK, kShape, getK⟩ := splitHeads_spec (projected attn.kProj keyShape) pos
  obtain ⟨v, splitV, vShape, getV⟩ := splitHeads_spec (projected attn.vProj valueShape) pos
  let kT : Tensor α := ofFun [batch, numHeads, hd, len] fun index => k.get (swapAt index 2 3)
  have transposedK : k.transpose (-2) (-1) = .ok kT := by
    rw [transpose_of_wrapDim (by rw [kShape]; rfl) (by rw [kShape]; rfl), kShape]
    rfl
  obtain ⟨P, productP, shapeP, getP⟩ :=
    matmul_batched (show q.shape = [batch, numHeads] ++ [slots, hd] from qShape)
      (show kT.shape = [batch, numHeads] ++ [hd, len] from rfl)
  obtain ⟨W, softmaxW, shapeW, getW⟩ := softmax_last S
    (show (P.map (· / S.sqrt (hd : Nat))).shape = [batch, numHeads, slots] ++ [len] by simp [shapeP])
  have shapeDropped : (Tensor.dropout attn.dropout keep W).shape = [batch, numHeads] ++ [slots, len] := by
    cases keep <;> simp [Tensor.dropout, shapeW, shapeP]
  obtain ⟨O, productO, shapeO, getO⟩ :=
    matmul_batched shapeDropped (show v.shape = [batch, numHeads] ++ [len, hd] from vShape)
  obtain ⟨Z, mergeZ, shapeZ, getZ⟩ :=
    mergeHeads_spec (show O.shape = [batch, numHeads, slots, hd] by simp [shapeO]) pos
  rw [← split] at mergeZ shapeZ
  have outShape : (Z.alongLast dModel attn.outProj.apply).shape = [batch, slots, dModel] := by
    rw [shape_alongLast, shapeZ]
    rfl
  refine ⟨Z.alongLast dModel attn.outProj.apply, ?_, outShape, fun noDropout => ?_⟩
  · simp only [forward, size, headDim, Data.ok_bind,
      attn.qProj.forward_of_shape (show query.shape = [batch, slots] ++ [dModel] from queryShape),
      attn.kProj.forward_of_shape (show key.shape = [batch, len] ++ [dModel] from keyShape),
      attn.vProj.forward_of_shape (show value.shape = [batch, len] ++ [dModel] from valueShape),
      splitQ, splitK, splitV, transposedK, productP, softmaxW, productO, mergeZ,
      attn.outProj.forward_of_shape (show Z.shape = [batch, slots] ++ [dModel] from shapeZ)]
  subst noDropout
  refine ⟨by rw [outShape]; rfl, fun index inside => ?_⟩
  rw [outShape] at inside
  rcases index with _ | ⟨b, _ | ⟨s, _ | ⟨o, _ | ⟨_, _⟩⟩⟩⟩ <;> simp at inside
  obtain ⟨hb, hs, ho⟩ := inside
  have hdPos : 0 < hd := Nat.pos_of_ne_zero fun zero => by simp [zero] at split; omega
  rw [get_alongLast_three attn.outProj.apply shapeZ hb hs ho, reference, get_ofFun _ (by simp [hb, hs, ho])]
  simp only [headDim, List.getD_cons_zero, List.getD_cons_succ]
  apply attn.outProj.apply_congr
  intro c hc
  have hc' : c < numHeads * hd := split ▸ hc
  have hj : c / hd < numHeads := (Nat.div_lt_iff_lt_mul hdPos).mpr hc'
  have ht : c % hd < hd := Nat.mod_lt _ hdPos
  have scoreEq : ∀ l < len, (P.map (· / S.sqrt (hd : Nat))).get [b, c / hd, s, l] =
      (∑ t ∈ Finset.range hd,
        attn.qProj.apply (fun e => query.get [b, s, e]) (c / hd * hd + t) *
          attn.kProj.apply (fun e => key.get [b, l, e]) (c / hd * hd + t)) / S.sqrt (hd : Nat) := by
    intro l hl
    have atP := getP [b, c / hd] s l (by simp [hb, hj]) hs hl
    simp only [List.cons_append, List.nil_append] at atP
    rw [get_map, atP]
    congr 1
    refine Finset.sum_congr rfl fun t member => ?_
    have ht := Finset.mem_range.mp member
    have coord : c / hd * hd + t < dModel := split ▸ head_coord_lt hj ht
    have atKT : kT.get [b, c / hd, t, l] = k.get [b, c / hd, l, t] := by
      rw [get_ofFun _ (by simp [hb, hj, ht, hl])]
      rfl
    rw [getQ b (c / hd) s t hb hj hs ht, get_alongLast_three _ queryShape hb hs coord, atKT,
      getK b (c / hd) l t hb hj hl ht, get_alongLast_three _ keyShape hb hl coord]
  rw [getZ b s c hb hs hc']
  have atO := getO [b, c / hd] s (c % hd) (by simp [hb, hj]) hs ht
  simp only [List.cons_append, List.nil_append, dropout_none] at atO
  rw [atO]
  refine Finset.sum_congr rfl fun l member => ?_
  have hl := Finset.mem_range.mp member
  have atW := getW [b, c / hd, s] l (by simp [hb, hj, hs]) hl
  simp only [List.cons_append, List.nil_append] at atW
  congr 1
  · rw [atW, scoreEq l hl]
    congr 1
    exact Finset.sum_congr rfl fun l' member' => by rw [scoreEq l' (Finset.mem_range.mp member')]
  · rw [getV b (c / hd) l (c % hd) hb hj hl ht,
      get_alongLast_three _ valueShape hb hl (split ▸ head_coord_lt hj ht)]

/-- With dropout inactive, the forward pass on queries `(B, S, d)` and on keys
and values `(B, L, d)`, for `B ≥ 1` and `d ≥ 1`, returns the reference
attention: the heads are split and merged on the same coordinates, and the
softmax runs over the `L` positions of each sample, head and slot. -/
theorem forward_eq_reference (S : Scalars α) (attn : MultiHeadCrossAttention α dModel numHeads)
    {batch slots len : Nat} {query key value : Tensor α}
    (queryShape : query.shape = [batch, slots, dModel]) (keyShape : key.shape = [batch, len, dModel])
    (valueShape : value.shape = [batch, len, dModel]) (nonempty : 0 < batch) (wide : 0 < dModel) :
    ∃ out, attn.forward S none query key value = .ok out ∧
      Agree out (attn.reference S batch slots len query key value) := by
  obtain ⟨out, computed, _, agrees⟩ :=
    forward_spec S attn none queryShape keyShape valueShape nonempty wide
  exact ⟨out, computed, agrees rfl⟩

theorem forward_eq_reference_single :
    let lin : Linear ℚ 1 1 := ⟨⟨[1, 1], fun _ => 1⟩, ⟨[1], fun _ => 0⟩, rfl, rfl⟩
    let attn : MultiHeadCrossAttention ℚ 1 1 := ⟨lin, lin, lin, lin, 0, Nat.one_pos, rfl⟩
    let S : Scalars ℚ := ⟨id, id, id, id, id, id⟩
    let x : Tensor ℚ := ⟨[1, 1, 1], fun _ => 2⟩
    (x.shape = [1, 1, 1] ∧ 0 < 1) ∧
      ∃ out, attn.forward S none x x x = .ok out ∧ Agree out (attn.reference S 1 1 1 x x x) :=
  ⟨⟨rfl, Nat.one_pos⟩, forward_eq_reference _ _ rfl rfl rfl Nat.one_pos Nat.one_pos⟩

/-- A batch of no queries: the head split's `view(0, -1, 1, 1)` of zero
elements cannot infer its `-1` and raises, where the reference attention is
the empty tensor. -/
theorem forward_empty_batch_raises :
    let lin : Linear ℚ 1 1 := ⟨⟨[1, 1], fun _ => 1⟩, ⟨[1], fun _ => 0⟩, rfl, rfl⟩
    let attn : MultiHeadCrossAttention ℚ 1 1 := ⟨lin, lin, lin, lin, 0, Nat.one_pos, rfl⟩
    let S : Scalars ℚ := ⟨id, id, id, id, id, id⟩
    let empty : Tensor ℚ := ⟨[0, 1, 1], fun _ => 2⟩
    attn.forward S none empty empty empty = .error .runtimeError :=
  rfl

end MultiHeadCrossAttention

end Model
end Neurlang
