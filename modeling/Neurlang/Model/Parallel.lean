import Neurlang.Model.Attention
import Neurlang.Data.Instruction

namespace Neurlang
namespace Model

/-!
# `ParallelInstructionModel` and `LightParallelModel`

The two networks of `model.py`, with the eight prediction heads as one family
indexed by `Head` and returned as the dict of their logits.  The full model
encodes the tokens with an embedding, the positional table and three
same-length convolutions, lets the learned slot queries attend to the encoding
twice, and applies a feed-forward block before the heads.  The light model
pools the convolved embedding to one vector per prompt and projects it to the
slots.

`nn.Dropout` and `nn.BatchNorm1d` read the module's mode, given here as `Mode`:
in training mode the dropout draws are an argument, one stream per dropout
call of the forward pass.
-/

open Torch Tensor
open Data (Head)

variable {α : Type} [LinearOrderedField α]

/-- `model.eval()`, or `model.train()` with the draws of the dropout calls:
`draws site k` keeps element `k` at the `site`th dropout call. -/
inductive Mode where
  | eval
  | train (draws : Nat -> Nat -> Bool)

namespace Mode

/-- `self.training`. -/
def training : Mode -> Bool
  | eval => false
  | train _ => true

/-- The draws of the `site`th dropout call, none in eval mode. -/
def keep : Mode -> Nat -> Option (Nat -> Bool)
  | eval, _ => none
  | train draws, site => some (draws site)

@[simp] theorem training_eval : eval.training = false := rfl

@[simp] theorem keep_eval (site : Nat) : eval.keep site = none := rfl

end Mode

/-- `padding_idx=256` of the embedding of both models: the id that the loader
and `tokenize` append after the text's bytes. -/
def paddingIdx : Nat := 256

/-- `ParallelInstructionModel(vocab_size, embed_dim, hidden_dim, num_slots,
num_heads, dropout, max_seq_len)` with its parameters.  The embedding's
`padding_idx = 256` must lie below `vocab_size`, and the encoder's middle
widths 256 and 512 are fixed by the constructor.  The positional table is the
buffer `PositionalEncoding.table` computes; no result here reads its values. -/
structure ParallelInstructionModel (α : Type) where
  vocabSize : Nat
  embedDim : Nat
  hiddenDim : Nat
  numSlots : Nat
  numHeads : Nat
  maxSeqLen : Nat
  dropout : α
  padding_lt : 256 < vocabSize
  embedding : Embedding α vocabSize embedDim
  posEncoding : PositionalEncoding α embedDim maxSeqLen
  conv1 : Conv1d α embedDim 256 3 1
  bn1 : BatchNorm1d α 256
  conv2 : Conv1d α 256 512 3 1
  bn2 : BatchNorm1d α 512
  conv3 : Conv1d α 512 hiddenDim 3 1
  slotQueries : Tensor α
  slotQueries_shape : slotQueries.shape = [1, numSlots, hiddenDim]
  crossAttention : List (MultiHeadCrossAttention α hiddenDim numHeads)
  crossAttention_length : crossAttention.length = 2
  layerNorms : List (LayerNorm α hiddenDim)
  layerNorms_length : layerNorms.length = 2
  ffn1 : Linear α hiddenDim (hiddenDim * 4)
  ffn2 : Linear α (hiddenDim * 4) hiddenDim
  ffnNorm : LayerNorm α hiddenDim
  heads : (head : Head) -> Linear α hiddenDim head.numClasses

namespace ParallelInstructionModel

/-- The model of the given sizes with every parameter equal to `value`. -/
def filled (vocabSize embedDim hiddenDim numSlots numHeads maxSeqLen : Nat)
    (padding_lt : 256 < vocabSize) (heads_pos : 0 < numHeads) (heads_dvd : hiddenDim % numHeads = 0)
    (value : α) : ParallelInstructionModel α :=
  let attn := MultiHeadCrossAttention.filled value heads_pos heads_dvd
  ⟨vocabSize, embedDim, hiddenDim, numSlots, numHeads, maxSeqLen, value, padding_lt,
    Embedding.filled value, PositionalEncoding.filled value, Conv1d.filled value,
    BatchNorm1d.filled value, Conv1d.filled value, BatchNorm1d.filled value, Conv1d.filled value,
    ⟨[1, numSlots, hiddenDim], fun _ => value⟩, rfl, [attn, attn], rfl,
    [LayerNorm.filled value, LayerNorm.filled value], rfl, Linear.filled value, Linear.filled value,
    LayerNorm.filled value, fun _ => Linear.filled value⟩

/-- `self.encoder`: three kernel-3, padding-1 convolutions, each followed by
GELU, the first two then by batch normalisation. -/
def encode (S : Scalars α) (model : ParallelInstructionModel α) (training : Bool) (x : Tensor α) :
    Except TorchError (Tensor α) := do
  let h ← model.conv1.forward x
  let h ← model.bn1.forward S training (h.map (gelu S))
  let h ← model.conv2.forward h
  let h ← model.bn2.forward S training (h.map (gelu S))
  let h ← model.conv3.forward h
  pure (h.map (gelu S))

/-- One pass of the cross-attention loop: `norm(slots + attn(slots, encoded,
encoded))`, the attention's dropout drawing from `keep`. -/
def crossLayer {width heads : Nat} (S : Scalars α) (keep : Option (Nat -> Bool))
    (encoded slots : Tensor α) (attn : MultiHeadCrossAttention α width heads)
    (norm : LayerNorm α width) :
    Except TorchError (Tensor α) := do
  let attended ← attn.forward S keep slots encoded encoded
  norm.forward S (← slots.zipWith (· + ·) attended)

/-- `self.ffn`: Linear, GELU, Dropout, Linear, Dropout. -/
def feedForward (S : Scalars α) (model : ParallelInstructionModel α) (mode : Mode) (x : Tensor α) :
    Except TorchError (Tensor α) := do
  let h ← model.ffn1.forward x
  let h ← model.ffn2.forward (Tensor.dropout model.dropout (mode.keep 2) (h.map (gelu S)))
  pure (Tensor.dropout model.dropout (mode.keep 3) h)

/-- `forward(x)` for a batch of token ids: the logits of every head. -/
def forward (S : Scalars α) (model : ParallelInstructionModel α) (mode : Mode) (x : Tensor Int) :
    Except TorchError (Head -> Tensor α) := do
  let batchSize ← x.size 0
  let embedded ← model.posEncoding.forward (← model.embedding.forward x)
  let encoded ← (← model.encode S mode.training (← embedded.permute [0, 2, 1])).permute [0, 2, 1]
  let slots ← model.slotQueries.expand [batchSize, -1, -1]
  let slots ← (model.crossAttention.zip model.layerNorms).enum.foldlM
    (fun slots layer => crossLayer S (mode.keep layer.1) encoded slots layer.2.1 layer.2.2) slots
  let slots ← model.ffnNorm.forward S (← slots.zipWith (· + ·) (← model.feedForward S mode slots))
  Head.traverse fun head => (model.heads head).forward slots

end ParallelInstructionModel

/-- `LightParallelModel(vocab_size, embed_dim, hidden_dim, num_slots)` with
its parameters. -/
structure LightParallelModel (α : Type) where
  vocabSize : Nat
  embedDim : Nat
  hiddenDim : Nat
  numSlots : Nat
  padding_lt : 256 < vocabSize
  embedding : Embedding α vocabSize embedDim
  conv1 : Conv1d α embedDim 128 3 1
  conv2 : Conv1d α 128 hiddenDim 3 1
  slotProj : Linear α hiddenDim (numSlots * hiddenDim)
  heads : (head : Head) -> Linear α hiddenDim head.numClasses

namespace LightParallelModel

/-- The model of the given sizes with every parameter equal to `value`. -/
def filled (vocabSize embedDim hiddenDim numSlots : Nat) (padding_lt : 256 < vocabSize) (value : α) :
    LightParallelModel α :=
  ⟨vocabSize, embedDim, hiddenDim, numSlots, padding_lt, Embedding.filled value, Conv1d.filled value,
    Conv1d.filled value, Linear.filled value, fun _ => Linear.filled value⟩

/-- `self.encoder`: two convolutions with ReLU, the mean over positions, and
`Flatten`. -/
def encode (model : LightParallelModel α) (x : Tensor α) : Except TorchError (Tensor α) := do
  let h ← model.conv1.forward x
  let h ← model.conv2.forward (h.map relu)
  flatten (← adaptiveAvgPool1d 1 (h.map relu))

/-- `forward(x)`: the logits of every head. -/
def forward (model : LightParallelModel α) (x : Tensor Int) : Except TorchError (Head -> Tensor α) := do
  let batchSize ← x.size 0
  let features ← model.encode (← (← model.embedding.forward x).permute [0, 2, 1])
  let slots ← (← model.slotProj.forward features).view [batchSize, model.numSlots, -1]
  Head.traverse fun head => (model.heads head).forward slots

end LightParallelModel

end Model
end Neurlang
