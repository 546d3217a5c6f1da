import Neurlang.Torch.Tensor

namespace Neurlang
namespace Torch

/-!
# Functional operations

`torch.matmul`, `F.softmax`, the activations and dropout, over a linearly
ordered field `α` that stands for exact real arithmetic.  The functions a
field cannot compute, `exp`, `log`, `sqrt`, `erf`, `sin` and `cos`, are a
parameter `Scalars`, so every result holds for each choice of them, the real
ones included.  PyTorch's softmax subtracts the maximum before `exp`, which
leaves the exact value unchanged and is not modelled.
-/

/-- The functions of real arithmetic the network uses beyond the field
operations. -/
structure Scalars (α : Type) where
  exp : α -> α
  log : α -> α
  sqrt : α -> α
  erf : α -> α
  sin : α -> α
  cos : α -> α

namespace Tensor

variable {α β : Type}

/-! ## Operations along the last dimension -/

/-- An operation on every vector along the last dimension: the result has
`size` entries there, the `o`th computed by `f` from the vector. -/
def alongLast (size : Nat) (f : (Nat -> α) -> Nat -> β) (t : Tensor α) : Tensor β :=
  ofFun (t.shape.dropLast ++ [size]) fun index =>
    f (fun i => t.get (index.dropLast ++ [i])) (index.getLastD 0)

@[simp] theorem shape_alongLast (size : Nat) (f : (Nat -> α) -> Nat -> β) (t : Tensor α) :
    (t.alongLast size f).shape = t.shape.dropLast ++ [size] := rfl

theorem get_alongLast {size : Nat} (f : (Nat -> α) -> Nat -> β) {t : Tensor α}
    {front index : List Nat} {n o : Nat} (shape : t.shape = front ++ [n])
    (inside : InBounds front index) (lt : o < size) :
    (t.alongLast size f).get (index ++ [o]) = f (fun i => t.get (index ++ [i])) o := by
  rw [alongLast, get_ofFun _ (by
    rw [shape, List.dropLast_concat, inBounds_append inside.length_eq]
    exact ⟨inside, by simp [lt]⟩)]
  simp only [List.dropLast_concat, List.getLastD_concat]

/-- An operation along the last dimension of a rank-3 tensor, read at an index. -/
theorem get_alongLast_three {size : Nat} (f : (Nat -> α) -> Nat -> β) {t : Tensor α} {rows n m b i o : Nat}
    (shape : t.shape = [rows, n, m]) (hb : b < rows) (hi : i < n) (lt : o < size) :
    (t.alongLast size f).get [b, i, o] = f (fun j => t.get [b, i, j]) o := by
  have read := get_alongLast f (show t.shape = [rows, n] ++ [m] from shape)
    (show InBounds [rows, n] [b, i] by simp [hb, hi]) lt
  simpa only [List.cons_append, List.nil_append] using read

/-! ## Matrix products -/

variable [LinearOrderedField α]

/-- `torch.matmul(a, b)`: a 1-D argument is read as a row (left) or column
(right) and its dimension dropped from the result, the leading dimensions of
both broadcast, and each matrix of the result is the product of the two
matrices at its leading index. -/
def matmul (a b : Tensor α) : Except TorchError (Tensor α) := do
  if a.shape.length = 0 ∨ b.shape.length = 0 then throw .runtimeError
  let aShape := if a.shape.length = 1 then 1 :: a.shape else a.shape
  let bShape := if b.shape.length = 1 then b.shape ++ [1] else b.shape
  let inner := aShape.getLastD 0
  if inner ≠ bShape.getD (bShape.length - 2) 0 then throw .runtimeError
  let aBatch := aShape.take (aShape.length - 2)
  let bBatch := bShape.take (bShape.length - 2)
  let batch ← broadcastShape aBatch bBatch
  let rows := aShape.getD (aShape.length - 2) 0
  let cols := bShape.getLastD 0
  let product := ofFun (batch ++ [rows, cols]) fun index =>
    let outer := index.take batch.length
    ∑ k ∈ Finset.range inner,
      (⟨aShape, a.data⟩ : Tensor α).get
          (broadcastIndex aBatch outer ++ [index.getD batch.length 0, k]) *
        (⟨bShape, b.data⟩ : Tensor α).get
          (broadcastIndex bBatch outer ++ [k, index.getD (batch.length + 1) 0])
  pure ⟨batch ++ (if a.shape.length = 1 then [] else [rows]) ++
    (if b.shape.length = 1 then [] else [cols]), product.data⟩

/-- A batch of matrices times a batch of matrices with the same leading
sizes: each result matrix is the product of the two at its leading index. -/
theorem matmul_batched {a b : Tensor α} {batch : List Nat} {n m p : Nat}
    (aShape : a.shape = batch ++ [n, m]) (bShape : b.shape = batch ++ [m, p]) :
    ∃ c, matmul a b = .ok c ∧ c.shape = batch ++ [n, p] ∧
      ∀ index i j, InBounds batch index -> i < n -> j < p ->
        c.get (index ++ [i, j]) =
          ∑ k ∈ Finset.range m, a.get (index ++ [i, k]) * b.get (index ++ [k, j]) := by
  have aLength : a.shape.length = batch.length + 2 := by simp [aShape]
  have bLength : b.shape.length = batch.length + 2 := by simp [bShape]
  let product : Tensor α := ofFun (batch ++ [n, p]) fun index =>
    ∑ k ∈ Finset.range m,
      a.get (broadcastIndex batch (index.take batch.length) ++ [index.getD batch.length 0, k]) *
        b.get (broadcastIndex batch (index.take batch.length) ++ [k, index.getD (batch.length + 1) 0])
  refine ⟨product, ?_, rfl, fun index i j inside lt lt' => ?_⟩
  · have ranks : ¬ (a.shape.length = 0 ∨ b.shape.length = 0) := by omega
    have rankA : a.shape.length ≠ 1 := by omega
    have rankB : b.shape.length ≠ 1 := by omega
    simp only [matmul, if_neg ranks, if_neg rankA, if_neg rankB, mk_shape_data]
    simp [product, aShape, bShape, broadcastShape_self, List.getElem_append_right]
    rfl
  · have length := inside.length_eq
    rw [get_ofFun _ ((inBounds_append length).mpr ⟨inside, by simp [lt, lt']⟩)]
    simp [← length, broadcastIndex_of_inBounds inside, List.getElem_append_right]

/-- `F.softmax(t, dim)`. -/
def softmax (S : Scalars α) (t : Tensor α) (dim : Int) : Except TorchError (Tensor α) := do
  let d ← wrapDim dim t.shape.length
  pure (ofFun t.shape fun index =>
    S.exp (t.get index) / ∑ j ∈ Finset.range (t.shape.getD d 0), S.exp (t.get (index.set d j)))

theorem softmax_of_wrapDim (S : Scalars α) {t : Tensor α} {dim : Int} {d : Nat}
    (wrap : wrapDim dim t.shape.length = .ok d) :
    softmax S t dim = .ok (ofFun t.shape fun index =>
      S.exp (t.get index) / ∑ j ∈ Finset.range (t.shape.getD d 0), S.exp (t.get (index.set d j))) := by
  simp [softmax, wrap]

/-- Softmax over the last dimension: each entry's `exp` over the sum of the
`exp`s of its vector. -/
theorem softmax_last (S : Scalars α) {t : Tensor α} {front : List Nat} {n : Nat}
    (shape : t.shape = front ++ [n]) :
    ∃ w, softmax S t (-1) = .ok w ∧ w.shape = t.shape ∧
      ∀ index l, InBounds front index -> l < n ->
        w.get (index ++ [l]) =
          S.exp (t.get (index ++ [l])) / ∑ j ∈ Finset.range n, S.exp (t.get (index ++ [j])) := by
  have wrap : wrapDim (-1) t.shape.length = .ok front.length := by
    rw [shape, List.length_append, List.length_singleton, wrapDim_neg_one]
  refine ⟨_, softmax_of_wrapDim S wrap, rfl, fun index l inside lt => ?_⟩
  have length := inside.length_eq
  rw [get_ofFun _ (by rw [shape, inBounds_append length]; exact ⟨inside, by simp [lt]⟩)]
  simp [shape, ← length, List.set_append_right]

/-! ## Activations and dropout -/

/-- `nn.GELU()`, the exact form `x / 2 * (1 + erf(x / sqrt 2))`. -/
def gelu (S : Scalars α) (x : α) : α := x / 2 * (1 + S.erf (x / S.sqrt 2))

/-- `nn.ReLU()`. -/
def relu (x : α) : α := max x 0

/-- `nn.Dropout(p)`: the identity in eval mode; in training mode the draws
`keep` (one per element of storage) zero elements and rescale the rest by
`1 / (1 - p)`. -/
def dropout (p : α) (keep : Option (Nat -> Bool)) (t : Tensor α) : Tensor α :=
  match keep with
  | none => t
  | some keep => ⟨t.shape, fun k => if keep k then t.data k / (1 - p) else 0⟩

@[simp] theorem dropout_none (p : α) (t : Tensor α) : dropout p none t = t := rfl

end Tensor

end Torch
end Neurlang
