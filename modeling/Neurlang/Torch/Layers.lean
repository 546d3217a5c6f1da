import Neurlang.Torch.Functional

namespace Neurlang
namespace Torch

/-!
# The `nn` modules of the models

Each module is a structure over its parameter tensors whose sizes are fixed
by its constructor arguments, so a module of the wrong size cannot be built,
and its `forward` raises what PyTorch raises on an input of the wrong shape.
Initialisation draws and gradients are not modelled: a forward pass reads the
parameters as they are.  `BatchNorm1d` in training mode also updates its
running statistics; that update is left out, and the forward pass returns the
normalised tensor only.
-/

open Tensor

variable {α : Type} [LinearOrderedField α]

/-- `eps = 1e-5` of `BatchNorm1d` and `LayerNorm`. -/
def normEps : α := 1 / 100000

/-! ## Linear and embedding layers -/

/-- `nn.Linear(in_features, out_features)`. -/
structure Linear (α : Type) (inFeatures outFeatures : Nat) where
  weight : Tensor α
  bias : Tensor α
  weight_shape : weight.shape = [outFeatures, inFeatures]
  bias_shape : bias.shape = [outFeatures]

namespace Linear

variable {inFeatures outFeatures : Nat}

/-- Entry `o` of `x Wᵀ + b` for one input vector `x`. -/
def apply (lin : Linear α inFeatures outFeatures) (x : Nat -> α) (o : Nat) : α :=
  ∑ i ∈ Finset.range inFeatures, x i * lin.weight.get [o, i] + lin.bias.get [o]

/-- `lin(x)`: the last dimension must be `in_features`. -/
def forward (lin : Linear α inFeatures outFeatures) (x : Tensor α) : Except TorchError (Tensor α) :=
  if x.shape.getLast? = some inFeatures then .ok (x.alongLast outFeatures lin.apply)
  else .error .runtimeError

/-- The layer with every parameter equal to `value`. -/
def filled (value : α) : Linear α inFeatures outFeatures :=
  ⟨⟨[outFeatures, inFeatures], fun _ => value⟩, ⟨[outFeatures], fun _ => value⟩, rfl, rfl⟩

theorem forward_of_shape (lin : Linear α inFeatures outFeatures) {x : Tensor α}
    {front : List Nat} (shape : x.shape = front ++ [inFeatures]) :
    lin.forward x = .ok (x.alongLast outFeatures lin.apply) := by
  simp [forward, shape]

theorem apply_congr (lin : Linear α inFeatures outFeatures) {x y : Nat -> α}
    (same : ∀ i < inFeatures, x i = y i) (o : Nat) : lin.apply x o = lin.apply y o := by
  simp only [apply]
  congr 1
  exact Finset.sum_congr rfl fun i member => by rw [same i (Finset.mem_range.mp member)]

end Linear

/-- `nn.Embedding(num_embeddings, embedding_dim)`.  Its `padding_idx` only
fixes the initial row and the gradient, so the forward pass does not read it. -/
structure Embedding (α : Type) (numEmbeddings embeddingDim : Nat) where
  weight : Tensor α
  weight_shape : weight.shape = [numEmbeddings, embeddingDim]

/-- The table with every entry equal to `value`. -/
def Embedding.filled {numEmbeddings embeddingDim : Nat} (value : α) :
    Embedding α numEmbeddings embeddingDim :=
  ⟨⟨[numEmbeddings, embeddingDim], fun _ => value⟩, rfl⟩

/-- `emb(x)` for a tensor of token ids: row `x[i]` of the table for every
`i`; an id outside `[0, num_embeddings)` raises `IndexError`. -/
def Embedding.forward {numEmbeddings embeddingDim : Nat}
    (emb : Embedding α numEmbeddings embeddingDim) (x : Tensor Int) : Except TorchError (Tensor α) :=
  if (List.range x.numel).all fun k => 0 ≤ x.data k ∧ x.data k < numEmbeddings then
    .ok (ofFun (x.shape ++ [embeddingDim]) fun index =>
      emb.weight.get [(x.get index.dropLast).toNat, index.getLastD 0])
  else .error .indexError

omit [LinearOrderedField α] in
/-- Ids in range: every position reads its row of the table. -/
theorem Embedding.forward_of_inRange {numEmbeddings embeddingDim : Nat}
    (emb : Embedding α numEmbeddings embeddingDim) {x : Tensor Int}
    (inRange : ∀ index, InBounds x.shape index -> 0 ≤ x.get index ∧ x.get index < numEmbeddings) :
    emb.forward x = .ok (ofFun (x.shape ++ [embeddingDim]) fun index =>
      emb.weight.get [(x.get index.dropLast).toNat, index.getLastD 0]) := by
  have checked : ((List.range x.numel).all fun k => 0 ≤ x.data k ∧ x.data k < numEmbeddings) = true := by
    refine List.all_eq_true.mpr fun k member => ?_
    have below := List.mem_range.mp member
    have inside := inBounds_unravel below
    have read := inRange _ inside
    simp only [Tensor.get, offset_unravel below] at read
    simpa using read
  rw [Embedding.forward, if_pos checked]

/-! ## Convolution and pooling -/

/-- `nn.Conv1d(in_channels, out_channels, kernel_size, padding=padding)` with
stride 1 and zero padding. -/
structure Conv1d (α : Type) (inChannels outChannels kernelSize padding : Nat) where
  weight : Tensor α
  bias : Tensor α
  weight_shape : weight.shape = [outChannels, inChannels, kernelSize]
  bias_shape : bias.shape = [outChannels]

namespace Conv1d

variable {inChannels outChannels kernelSize padding : Nat}

/-- The layer with every parameter equal to `value`. -/
def filled (value : α) : Conv1d α inChannels outChannels kernelSize padding :=
  ⟨⟨[outChannels, inChannels, kernelSize], fun _ => value⟩, ⟨[outChannels], fun _ => value⟩, rfl, rfl⟩

/-- Position `q` of channel `c` of sample `n`, after `padding` zeros on both
sides of a signal of length `len`. -/
def padded (x : Tensor α) (len padding n c q : Nat) : α :=
  if padding ≤ q ∧ q - padding < len then x.get [n, c, q - padding] else 0

/-- The convolution of a batch `(N, C, L)`: output length `L + 2p - k + 1`.
A layer without output channels raises, its weight being of size 0 in
dimension 0 where the one group needs at least 1, and so do an input of other
channels and a padded signal shorter than the kernel. -/
def batched (conv : Conv1d α inChannels outChannels kernelSize padding) (x : Tensor α) :
    Except TorchError (Tensor α) :=
  match x.shape with
  | [n, c, len] =>
      if outChannels = 0 ∨ c ≠ inChannels ∨ len + 2 * padding < kernelSize then .error .runtimeError
      else .ok (ofFun [n, outChannels, len + 2 * padding - kernelSize + 1] fun index =>
        match index with
        | [b, o, l] => conv.bias.get [o] +
            ∑ c ∈ Finset.range inChannels, ∑ j ∈ Finset.range kernelSize,
              conv.weight.get [o, c, j] * padded x len padding b c (l + j)
        | _ => 0)
  | _ => .error .runtimeError

/-- `conv(x)` for a batched `(N, C, L)` or an unbatched `(C, L)` input. -/
def forward (conv : Conv1d α inChannels outChannels kernelSize padding) (x : Tensor α) :
    Except TorchError (Tensor α) :=
  match x.shape with
  | [_, _, _] => conv.batched x
  | [c, len] => do
      let y ← conv.batched ⟨[1, c, len], x.data⟩
      pure ⟨y.shape.tail, y.data⟩
  | _ => .error .runtimeError

/-- A layer with output channels on a batch `(N, C_in, L)` whose padded
length covers the kernel. -/
theorem forward_spec (conv : Conv1d α inChannels outChannels kernelSize padding) {x : Tensor α}
    {n len : Nat} (shape : x.shape = [n, inChannels, len]) (fits : kernelSize ≤ len + 2 * padding)
    (out : 0 < outChannels) :
    ∃ y, conv.forward x = .ok y ∧ y.shape = [n, outChannels, len + 2 * padding - kernelSize + 1] ∧
      ∀ b o l, b < n -> o < outChannels -> l < len + 2 * padding - kernelSize + 1 ->
        y.get [b, o, l] = conv.bias.get [o] +
          ∑ c ∈ Finset.range inChannels, ∑ j ∈ Finset.range kernelSize,
            conv.weight.get [o, c, j] * padded x len padding b c (l + j) := by
  have batched : conv.batched x = .ok (ofFun [n, outChannels, len + 2 * padding - kernelSize + 1]
      fun index => match index with
        | [b, o, l] => conv.bias.get [o] +
            ∑ c ∈ Finset.range inChannels, ∑ j ∈ Finset.range kernelSize,
              conv.weight.get [o, c, j] * padded x len padding b c (l + j)
        | _ => 0) := by
    simp only [batched, shape]
    rw [if_neg (by omega)]
  refine ⟨_, by rw [forward, shape]; exact batched, rfl, fun b o l hb ho hl => ?_⟩
  rw [get_ofFun _ (by simp [hb, ho, hl])]

end Conv1d

/-- Bin `i` of `n` bins over a length `len`: from `floor(i * len / n)` to
`ceil((i + 1) * len / n)`. -/
def poolBin (len n i : Nat) : Nat × Nat :=
  (i * len / n, ((i + 1) * len + n - 1) / n)

/-- `nn.AdaptiveAvgPool1d(output_size)` on `(N, C, L)`: the mean of each bin. -/
def adaptiveAvgPool1d (outputSize : Nat) (x : Tensor α) : Except TorchError (Tensor α) :=
  match x.shape with
  | [n, c, len] =>
      if c = 0 ∨ len = 0 then .error .runtimeError
      else .ok (ofFun [n, c, outputSize] fun index =>
        match index with
        | [b, ch, i] =>
            let bin := poolBin len outputSize i
            (∑ l ∈ Finset.range (bin.2 - bin.1), x.get [b, ch, bin.1 + l]) / (bin.2 - bin.1 : Nat)
        | _ => 0)
  | _ => .error .runtimeError

/-- Pooling `(N, C, L)` to one bin: the mean over all positions. -/
theorem adaptiveAvgPool1d_one {x : Tensor α} {n c len : Nat} (shape : x.shape = [n, c, len])
    (channels : 0 < c) (positions : 0 < len) :
    ∃ y, adaptiveAvgPool1d 1 x = .ok y ∧ y.shape = [n, c, 1] ∧
      ∀ b ch, b < n -> ch < c ->
        y.get [b, ch, 0] = (∑ l ∈ Finset.range len, x.get [b, ch, l]) / (len : Nat) := by
  refine ⟨_, by simp only [adaptiveAvgPool1d, shape]; rw [if_neg (by omega)], rfl,
    fun b ch hb hch => ?_⟩
  rw [get_ofFun _ (by simp [hb, hch])]
  simp [poolBin]

/-- `nn.Flatten()`: dimensions 1 to the last merged into one. -/
def flatten (x : Tensor α) : Except TorchError (Tensor α) :=
  match x.shape with
  | n :: rest@(_ :: _) => .ok ⟨[n, rest.prod], x.data⟩
  | _ => .error .indexError

omit [LinearOrderedField α] in
theorem flatten_three {x : Tensor α} {n c len : Nat} (shape : x.shape = [n, c, len]) :
    flatten x = .ok ⟨[n, c * len], x.data⟩ := by
  simp [flatten, shape]

/-! ## Normalisation -/

/-- `nn.BatchNorm1d(num_features)` with its affine parameters and running
statistics. -/
structure BatchNorm1d (α : Type) (numFeatures : Nat) where
  weight : Tensor α
  bias : Tensor α
  runningMean : Tensor α
  runningVar : Tensor α
  weight_shape : weight.shape = [numFeatures]
  bias_shape : bias.shape = [numFeatures]
  runningMean_shape : runningMean.shape = [numFeatures]
  runningVar_shape : runningVar.shape = [numFeatures]

namespace BatchNorm1d

variable {numFeatures : Nat}

/-- The layer with every parameter and running statistic equal to `value`. -/
def filled (value : α) : BatchNorm1d α numFeatures :=
  let vector : Tensor α := ⟨[numFeatures], fun _ => value⟩
  ⟨vector, vector, vector, vector, rfl, rfl, rfl, rfl⟩

/-- Mean and biased variance of channel `c` over the batch and the positions
`rest` of an input `(N, C, *rest)`. -/
def batchStats (x : Tensor α) (n c : Nat) (rest : List Nat) : α × α :=
  let count : α := (n * rest.prod : Nat)
  let values := fun b p => x.get (b :: c :: unravel rest p)
  let mean := (∑ b ∈ Finset.range n, ∑ p ∈ Finset.range rest.prod, values b p) / count
  (mean, (∑ b ∈ Finset.range n, ∑ p ∈ Finset.range rest.prod, (values b p - mean) ^ 2) / count)

/-- `bn(x)` on `(N, C)` or `(N, C, L)`: each channel normalised by the
running statistics in eval mode and by the batch's own in training mode,
where a single value per channel raises `ValueError`. -/
def forward (S : Scalars α) (bn : BatchNorm1d α numFeatures) (training : Bool) (x : Tensor α) :
    Except TorchError (Tensor α) :=
  match x.shape with
  | n :: c :: rest =>
      if 1 < rest.length then .error .valueError
      else if training ∧ n * rest.prod = 1 then .error .valueError
      else if c ≠ numFeatures then .error .runtimeError
      else .ok (ofFun x.shape fun index =>
        let ch := index.getD 1 0
        let stats := if training then batchStats x n ch rest
          else (bn.runningMean.get [ch], bn.runningVar.get [ch])
        (x.get index - stats.1) / S.sqrt (stats.2 + normEps) * bn.weight.get [ch] +
          bn.bias.get [ch])
  | _ => .error .valueError

/-- A batch `(N, C, L)` of the right width, with more than one value per channel
in training mode; in eval mode each element is normalised by its channel's
running statistics. -/
theorem forward_spec (S : Scalars α) (bn : BatchNorm1d α numFeatures) (training : Bool)
    {x : Tensor α} {n len : Nat} (shape : x.shape = [n, numFeatures, len])
    (enough : training = true -> n * len ≠ 1) :
    ∃ y, bn.forward S training x = .ok y ∧ y.shape = x.shape ∧
      (training = false -> ∀ index, InBounds x.shape index ->
        y.get index = (x.get index - bn.runningMean.get [index.getD 1 0]) /
            S.sqrt (bn.runningVar.get [index.getD 1 0] + normEps) * bn.weight.get [index.getD 1 0] +
          bn.bias.get [index.getD 1 0]) := by
  have single : ¬ (training = true ∧ n * [len].prod = 1) := fun both => enough both.1 (by simpa using both.2)
  simp only [forward, shape]
  rw [if_neg (by simp), if_neg single, if_neg (by simp)]
  refine ⟨_, rfl, rfl, fun eval index inside => ?_⟩
  rw [get_ofFun _ inside]
  simp [eval]

end BatchNorm1d

/-- `nn.LayerNorm(normalized_shape)` over the last dimension. -/
structure LayerNorm (α : Type) (size : Nat) where
  weight : Tensor α
  bias : Tensor α
  weight_shape : weight.shape = [size]
  bias_shape : bias.shape = [size]

namespace LayerNorm

variable {size : Nat}

/-- The layer with every parameter equal to `value`. -/
def filled (value : α) : LayerNorm α size :=
  ⟨⟨[size], fun _ => value⟩, ⟨[size], fun _ => value⟩, rfl, rfl⟩

/-- Entry `c` of one normalised vector: mean and biased variance over the
`size` entries. -/
def apply (S : Scalars α) (ln : LayerNorm α size) (x : Nat -> α) (c : Nat) : α :=
  let mean := (∑ i ∈ Finset.range size, x i) / size
  let var := (∑ i ∈ Finset.range size, (x i - mean) ^ 2) / size
  (x c - mean) / S.sqrt (var + normEps) * ln.weight.get [c] + ln.bias.get [c]

/-- `ln(x)`: the last dimension must be the normalised size. -/
def forward (S : Scalars α) (ln : LayerNorm α size) (x : Tensor α) : Except TorchError (Tensor α) :=
  if x.shape.getLast? = some size then .ok (x.alongLast size (ln.apply S))
  else .error .runtimeError

theorem forward_of_shape (S : Scalars α) (ln : LayerNorm α size) {x : Tensor α}
    {front : List Nat} (shape : x.shape = front ++ [size]) :
    ln.forward S x = .ok (x.alongLast size (ln.apply S)) := by
  simp [forward, shape]

end LayerNorm

/-! ## Positional encoding -/

/-- `PositionalEncoding(d_model, max_len)` and its buffer `pe` of shape
`(1, max_len, d_model)`. -/
structure PositionalEncoding (α : Type) (dModel maxLen : Nat) where
  pe : Tensor α
  pe_shape : pe.shape = [1, maxLen, dModel]

namespace PositionalEncoding

/-- The table with every entry equal to `value`. -/
def filled {dModel maxLen : Nat} (value : α) : PositionalEncoding α dModel maxLen :=
  ⟨⟨[1, maxLen, dModel], fun _ => value⟩, rfl⟩

/-- The buffer `__init__` computes: `sin` on even and `cos` on odd columns of
`position * div_term`.  An odd `d_model` leaves one more `cos` value than odd
columns, and the assignment raises. -/
def table (S : Scalars α) (dModel maxLen : Nat) : Except TorchError (Tensor α) :=
  if dModel % 2 = 1 then .error .runtimeError
  else .ok (ofFun [1, maxLen, dModel] fun index =>
    let position : α := (index.getD 1 0 : Nat)
    let column := index.getD 2 0
    let divTerm := S.exp (((2 * (column / 2) : Nat) : α) * (-S.log 10000 / dModel))
    if column % 2 = 0 then S.sin (position * divTerm) else S.cos (position * divTerm))

/-- `x + self.pe[:, :x.size(1)]`. -/
def forward {dModel maxLen : Nat} (pos : PositionalEncoding α dModel maxLen) (x : Tensor α) :
    Except TorchError (Tensor α) := do
  let len ← x.size 1
  let table ← pos.pe.sliceTo 1 len
  x.zipWith (· + ·) table

/-- A batch `(B, L, d)` with `L ≤ max_len`: position `l` gets row `l` of the
table added. -/
theorem forward_spec {dModel maxLen : Nat} (pos : PositionalEncoding α dModel maxLen)
    {x : Tensor α} {batch len : Nat} (shape : x.shape = [batch, len, dModel]) (within : len ≤ maxLen) :
    ∃ y, pos.forward x = .ok y ∧ y.shape = [batch, len, dModel] ∧
      ∀ b l e, b < batch -> l < len -> e < dModel -> y.get [b, l, e] = x.get [b, l, e] + pos.pe.get [0, l, e] := by
  have table := sliceTo_table pos.pe_shape within
  refine ⟨_, by
    rw [forward, size_one shape, Data.ok_bind, table, Data.ok_bind,
      zipWith_batch _ shape (show (ofFun [1, len, dModel] pos.pe.get).shape = 1 :: [len, dModel] from rfl)],
    rfl, fun b l e hb hl he => ?_⟩
  have inside : InBounds [len, dModel] [l, e] := by simp [hl, he]
  rw [get_ofFun _ (by simp [hb, hl, he]), shape, broadcastIndex_of_inBounds (by simp [hb, hl, he]),
    shape_ofFun, broadcastIndex_one inside, get_ofFun _ (by simp [hl, he])]

end PositionalEncoding

end Torch
end Neurlang
