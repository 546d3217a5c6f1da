import Neurlang.Torch.Layers

namespace Neurlang
namespace Torch

/-!
# Rows of a batch through the layers

`RowOf u b v` says that `v` is row `b` of the batch `u`, kept as a batch of
one.  Each lemma here runs one operation on a batch and on one of its rows and
finds the row of the first result in the second: the operation treats every
sample on its own.  Batch normalisation does so in eval mode only, where it
reads its running statistics instead of the batch's.
-/

namespace Tensor

variable {α β γ : Type}

theorem inBounds_pair {n m : Nat} {index : List Nat} (inside : InBounds [n, m] index) :
    ∃ i j, index = [i, j] ∧ i < n ∧ j < m := by
  unfold InBounds at inside
  rcases inside with _ | ⟨hi, _ | ⟨hj, _ | _⟩⟩
  exact ⟨_, _, rfl, hi, hj⟩

theorem InBounds.eq_concat {front index : List Nat} {n : Nat} (inside : InBounds (front ++ [n]) index) :
    ∃ front' o, index = front' ++ [o] ∧ InBounds front front' ∧ o < n := by
  induction front generalizing index with
  | nil =>
      unfold InBounds at inside
      rcases inside with _ | ⟨lt, _ | _⟩
      exact ⟨[], _, rfl, inBounds_nil, lt⟩
  | cons size front ih =>
      unfold InBounds at inside
      rcases inside with _ | ⟨lt, rest⟩
      obtain ⟨front', o, rfl, inFront, below⟩ := ih rest
      exact ⟨_ :: front', o, rfl, inBounds_cons.mpr ⟨lt, inFront⟩, below⟩

@[simp] theorem dropLast_cons_concat (a x : Nat) (l : List Nat) : (a :: (l ++ [x])).dropLast = a :: l := by
  rw [← List.cons_append, List.dropLast_concat]

/-! ## The row relation -/

section Relation

variable {u v : Tensor α} {b : Nat}

theorem RowOf.shape_of {rows : Nat} {rest : List Nat} (row : RowOf u b v) (shape : u.shape = rows :: rest) :
    v.shape = 1 :: rest := by
  rw [row.shape, shape, List.tail_cons]

theorem RowOf.lt_of {rows : Nat} {rest : List Nat} (row : RowOf u b v) (shape : u.shape = rows :: rest) :
    b < rows := by
  simpa [shape] using row.lt

/-- What holds of every element of a batch holds of every element of its rows. -/
theorem RowOf.forall_get (row : RowOf u b v) {P : α -> Prop}
    (all : ∀ index, InBounds u.shape index -> P (u.get index)) :
    ∀ index, InBounds v.shape index -> P (v.get index) := by
  intro index inside
  rw [row.shape] at inside
  cases index with
  | nil => exact absurd inside not_inBounds_cons_nil
  | cons i index =>
      obtain ⟨first, rest⟩ := inBounds_cons.mp inside
      obtain rfl : i = 0 := by omega
      rw [row.get _ rest]
      exact all _ (by rw [row.cons_shape]; exact inBounds_cons.mpr ⟨row.lt, rest⟩)

theorem RowOf.of_agree {u' v' : Tensor α} (row : RowOf u' b v') (left : Agree u u')
    (right : Agree v v') : RowOf u b v := by
  refine ⟨by rw [left.shape]; exact row.lt, by rw [right.shape, row.shape, left.shape],
    fun index inside => ?_⟩
  rw [left.shape] at inside
  rw [right.get _ (by rw [right.shape, row.shape]; exact inBounds_cons.mpr ⟨Nat.one_pos, inside⟩),
    row.get _ inside, left.get _ (by rw [left.shape, row.cons_shape]; exact inBounds_cons.mpr ⟨row.lt, inside⟩)]

theorem RowOf.map (row : RowOf u b v) (f : α -> β) : RowOf (u.map f) b (v.map f) :=
  ⟨row.lt, row.shape, fun index inside => by simp only [get_map, row.get index inside]⟩

/-- A `view` that keeps the batch dimension and the row size keeps the rows. -/
theorem RowOf.reshape (row : RowOf u b v) {rows : Nat} {rest rest' : List Nat}
    (shape : u.shape = rows :: rest) (same : rest'.prod = rest.prod) :
    RowOf ⟨rows :: rest', u.data⟩ b ⟨1 :: rest', v.data⟩ := by
  refine rowOf_of_data (row.lt_of shape) rfl fun k below => ?_
  have read := row.data (k := k) (by rw [shape, List.tail_cons, ← same]; exact below)
  simpa only [shape, List.tail_cons, same] using read

end Relation

theorem rowOf_ofFun {rows b : Nat} {rest : List Nat} {f g : List Nat -> α} (lt : b < rows)
    (same : ∀ index, InBounds rest index -> g (0 :: index) = f (b :: index)) :
    RowOf (ofFun (rows :: rest) f) b (ofFun (1 :: rest) g) :=
  ⟨lt, rfl, fun index (inside : InBounds rest index) => by
    rw [get_ofFun g (inBounds_cons.mpr ⟨Nat.one_pos, inside⟩), get_ofFun f (inBounds_cons.mpr ⟨lt, inside⟩)]
    exact same index inside⟩

/-- The row relation of two rank-3 tensors, read at every index. -/
theorem rowOf_three {u v : Tensor α} {rows b n m : Nat} (lt : b < rows)
    (uShape : u.shape = [rows, n, m]) (vShape : v.shape = [1, n, m])
    (same : ∀ i j, i < n -> j < m -> v.get [0, i, j] = u.get [b, i, j]) : RowOf u b v := by
  refine ⟨by simp [uShape, lt], by simp [vShape, uShape], fun index inside => ?_⟩
  rw [uShape] at inside
  obtain ⟨i, j, rfl, hi, hj⟩ := inBounds_pair inside
  exact same i j hi hj

/-- An operation along the last dimension that reads only the vector's
entries keeps the rows. -/
theorem RowOf.alongLast {u v : Tensor α} {b rows n : Nat} {mid : List Nat} (row : RowOf u b v)
    (shape : u.shape = rows :: (mid ++ [n])) (size : Nat) (f : (Nat -> α) -> Nat -> β)
    (reads : ∀ x y o, o < size -> (∀ i < n, x i = y i) -> f x o = f y o) :
    RowOf (u.alongLast size f) b (v.alongLast size f) := by
  have vShape := row.shape_of shape
  have lt := row.lt_of shape
  refine ⟨by simp [shape, lt], by simp [vShape, shape], fun index inside => ?_⟩
  simp only [shape_alongLast, shape, dropLast_cons_concat, List.cons_append, List.tail_cons] at inside
  obtain ⟨front, o, rfl, inFront, below⟩ := inside.eq_concat
  have vRead : (v.alongLast size f).get ((0 :: front) ++ [o]) = _ :=
    get_alongLast f (show v.shape = (1 :: mid) ++ [n] from vShape) (inBounds_cons.mpr ⟨Nat.one_pos, inFront⟩) below
  have uRead : (u.alongLast size f).get ((b :: front) ++ [o]) = _ :=
    get_alongLast f (show u.shape = (rows :: mid) ++ [n] from shape) (inBounds_cons.mpr ⟨lt, inFront⟩) below
  simp only [List.cons_append] at vRead uRead
  rw [vRead, uRead]
  exact reads _ _ o below fun i hi => row.get (front ++ [i]) (by
    rw [shape, List.tail_cons]
    exact (inBounds_append inFront.length_eq).mpr ⟨inFront, by simp [hi]⟩)

/-! ## Shape operations -/

theorem permute_021_row {u v : Tensor α} {b a c d : Nat} (row : RowOf u b v) (shape : u.shape = [a, c, d]) :
    ∃ u' v', u.permute [0, 2, 1] = .ok u' ∧ v.permute [0, 2, 1] = .ok v' ∧ u'.shape = [a, d, c] ∧
      RowOf u' b v' := by
  have vShape : v.shape = [1, c, d] := row.shape_of shape
  refine ⟨_, _, permute_021 shape, permute_021 vShape, rfl,
    rowOf_three (row.lt_of shape) rfl rfl fun i j hi hj => ?_⟩
  rw [get_ofFun _ (by simp [hi, hj]), get_ofFun _ (by simp [row.lt_of shape, hi, hj])]
  exact row.get [j, i] (by simp [shape, hi, hj])

theorem expand_batch_row {t : Tensor α} {rows cols b batch : Nat} (shape : t.shape = [1, rows, cols])
    (lt : b < batch) :
    ∃ u v, t.expand [batch, -1, -1] = .ok u ∧ t.expand [((1 : Nat) : Int), -1, -1] = .ok v ∧
      u.shape = [batch, rows, cols] ∧ RowOf u b v :=
  ⟨_, _, expand_batch shape batch, expand_batch shape 1, rfl,
    rowOf_ofFun lt fun index inside => by rw [broadcastIndex_one inside, broadcastIndex_one inside]⟩

theorem zipWith_same_row (f : α -> β -> γ) {x x' : Tensor α} {y y' : Tensor β} {b : Nat}
    (rx : RowOf x b x') (ry : RowOf y b y') (same : y.shape = x.shape) :
    ∃ s s', x.zipWith f y = .ok s ∧ x'.zipWith f y' = .ok s' ∧ s.shape = x.shape ∧ RowOf s b s' := by
  have same' : y'.shape = x'.shape := by rw [ry.shape, rx.shape, same]
  refine ⟨_, _, zipWith_same f same.symm, zipWith_same f same'.symm, rfl,
    ⟨rx.lt, rx.shape, fun index inside => ?_⟩⟩
  have inX : InBounds x.shape (b :: index) := by rw [rx.cons_shape]; exact inBounds_cons.mpr ⟨rx.lt, inside⟩
  have inX' : InBounds x'.shape (0 :: index) := by rw [rx.shape]; exact inBounds_cons.mpr ⟨Nat.one_pos, inside⟩
  rw [get_ofFun _ inX', get_ofFun _ inX, broadcastIndex_of_inBounds inX', broadcastIndex_of_inBounds inX,
    broadcastIndex_of_inBounds (same' ▸ inX'), broadcastIndex_of_inBounds (same ▸ inX), rx.get _ inside,
    ry.get _ (by rw [same]; exact inside)]

theorem flatten_row {u v : Tensor α} {b n c len : Nat} (row : RowOf u b v) (shape : u.shape = [n, c, len]) :
    ∃ u' v', flatten u = .ok u' ∧ flatten v = .ok v' ∧ u'.shape = [n, c * len] ∧ RowOf u' b v' :=
  ⟨_, _, flatten_three shape, flatten_three (row.shape_of shape), rfl, row.reshape shape (by simp)⟩

theorem view_split_last_row {u v : Tensor α} {b rows slots width : Nat} (row : RowOf u b v)
    (shape : u.shape = [rows, slots * width]) (slotted : 0 < slots) :
    ∃ u' v', u.view [(rows : Int), slots, -1] = .ok u' ∧ v.view [((1 : Nat) : Int), slots, -1] = .ok v' ∧
      u'.shape = [rows, slots, width] ∧ RowOf u' b v' :=
  ⟨_, _, view_split_last shape (Nat.lt_of_le_of_lt (Nat.zero_le b) (row.lt_of shape)) slotted,
    view_split_last (row.shape_of shape) Nat.one_pos slotted, rfl, row.reshape shape (by simp)⟩

end Tensor

/-! ## Layers -/

open Tensor

variable {α : Type} [LinearOrderedField α]

namespace Linear

variable {inFeatures outFeatures : Nat}

theorem forward_row (lin : Linear α inFeatures outFeatures) {u v : Tensor α} {b rows : Nat}
    {mid : List Nat} (row : RowOf u b v) (shape : u.shape = rows :: (mid ++ [inFeatures])) :
    ∃ u' v', lin.forward u = .ok u' ∧ lin.forward v = .ok v' ∧
      u'.shape = rows :: (mid ++ [outFeatures]) ∧ RowOf u' b v' :=
  ⟨_, _, lin.forward_of_shape (show u.shape = (rows :: mid) ++ [inFeatures] from shape),
    lin.forward_of_shape (show v.shape = (1 :: mid) ++ [inFeatures] from row.shape_of shape),
    by simp [shape], row.alongLast shape outFeatures lin.apply fun _ _ o _ same => lin.apply_congr same o⟩

end Linear

namespace LayerNorm

variable {size : Nat}

theorem apply_congr (S : Scalars α) (ln : LayerNorm α size) {x y : Nat -> α}
    (same : ∀ i < size, x i = y i) {c : Nat} (lt : c < size) : ln.apply S x c = ln.apply S y c := by
  have member : ∀ i ∈ Finset.range size, x i = y i := fun i inside => same i (Finset.mem_range.mp inside)
  have squares : ∀ mean : α, ∑ i ∈ Finset.range size, (x i - mean) ^ 2 = ∑ i ∈ Finset.range size, (y i - mean) ^ 2 :=
    fun mean => Finset.sum_congr rfl fun i inside => by rw [member i inside]
  simp only [apply, Finset.sum_congr rfl member, squares, same c lt]

theorem forward_row (S : Scalars α) (ln : LayerNorm α size) {u v : Tensor α} {b rows : Nat}
    {mid : List Nat} (row : RowOf u b v) (shape : u.shape = rows :: (mid ++ [size])) :
    ∃ u' v', ln.forward S u = .ok u' ∧ ln.forward S v = .ok v' ∧ u'.shape = u.shape ∧ RowOf u' b v' :=
  ⟨_, _, ln.forward_of_shape S (show u.shape = (rows :: mid) ++ [size] from shape),
    ln.forward_of_shape S (show v.shape = (1 :: mid) ++ [size] from row.shape_of shape),
    by simp [shape], row.alongLast shape size (ln.apply S) fun _ _ _ lt same => ln.apply_congr S same lt⟩

end LayerNorm

omit [LinearOrderedField α] in
/-- Token ids whose rows are looked up: the row of the batch's table is the
table of the row. -/
theorem Embedding.forward_row {numEmbeddings embeddingDim : Nat}
    (emb : Embedding α numEmbeddings embeddingDim) {x x' : Tensor Int} {b batch len : Nat}
    (row : RowOf x b x') (shape : x.shape = [batch, len])
    (inRange : ∀ index, InBounds x.shape index -> 0 ≤ x.get index ∧ x.get index < numEmbeddings) :
    ∃ u v, emb.forward x = .ok u ∧ emb.forward x' = .ok v ∧ u.shape = [batch, len, embeddingDim] ∧
      RowOf u b v := by
  have shape' := row.shape_of shape
  have lt := row.lt_of shape
  refine ⟨_, _, emb.forward_of_inRange inRange,
    emb.forward_of_inRange (row.forall_get (P := fun t => 0 ≤ t ∧ t < numEmbeddings) inRange),
    by simp [shape], rowOf_three lt (show _ = [batch, len, embeddingDim] by simp [shape])
      (show _ = [1, len, embeddingDim] by simp [shape']) fun l e hl he => ?_⟩
  rw [get_ofFun _ (by simp [shape', hl, he]), get_ofFun _ (by simp [shape, lt, hl, he])]
  show emb.weight.get [(x'.get [0, l]).toNat, e] = emb.weight.get [(x.get [b, l]).toNat, e]
  rw [row.get [l] (by simp [shape, hl])]

namespace PositionalEncoding

theorem forward_row {dModel maxLen : Nat} (pos : PositionalEncoding α dModel maxLen) {u v : Tensor α}
    {b batch len : Nat} (row : RowOf u b v) (shape : u.shape = [batch, len, dModel]) (within : len ≤ maxLen) :
    ∃ u' v', pos.forward u = .ok u' ∧ pos.forward v = .ok v' ∧ u'.shape = [batch, len, dModel] ∧
      RowOf u' b v' := by
  obtain ⟨u', computed, uShape, uGet⟩ := pos.forward_spec shape within
  obtain ⟨v', computed', vShape, vGet⟩ := pos.forward_spec (row.shape_of shape) within
  refine ⟨u', v', computed, computed', uShape, rowOf_three (row.lt_of shape) uShape vShape
    fun l e hl he => ?_⟩
  rw [vGet 0 l e Nat.one_pos hl he, uGet b l e (row.lt_of shape) hl he,
    row.get [l, e] (by simp [shape, hl, he])]

end PositionalEncoding

namespace Conv1d

variable {inChannels outChannels kernelSize padding : Nat}

theorem padded_row {u v : Tensor α} {b n len : Nat} (row : RowOf u b v)
    (shape : u.shape = [n, inChannels, len]) {c : Nat} (hc : c < inChannels) (q : Nat) :
    padded v len padding 0 c q = padded u len padding b c q := by
  unfold padded
  split_ifs with inside
  · exact row.get [c, q - padding] (by simp [shape, hc, inside.2])
  · rfl

theorem forward_row (conv : Conv1d α inChannels outChannels kernelSize padding) {u v : Tensor α}
    {b n len : Nat} (row : RowOf u b v) (shape : u.shape = [n, inChannels, len])
    (fits : kernelSize ≤ len + 2 * padding) (out : 0 < outChannels) :
    ∃ u' v', conv.forward u = .ok u' ∧ conv.forward v = .ok v' ∧
      u'.shape = [n, outChannels, len + 2 * padding - kernelSize + 1] ∧ RowOf u' b v' := by
  obtain ⟨u', computed, uShape, uGet⟩ := conv.forward_spec shape fits out
  obtain ⟨v', computed', vShape, vGet⟩ := conv.forward_spec (row.shape_of shape) fits out
  refine ⟨u', v', computed, computed', uShape, rowOf_three (row.lt_of shape) uShape vShape
    fun o l ho hl => ?_⟩
  rw [vGet 0 o l Nat.one_pos ho hl, uGet b o l (row.lt_of shape) ho hl]
  congr 1
  exact Finset.sum_congr rfl fun c inside => by
    simp only [padded_row row shape (Finset.mem_range.mp inside)]

end Conv1d

theorem adaptiveAvgPool1d_one_row {u v : Tensor α} {b n c len : Nat} (row : RowOf u b v)
    (shape : u.shape = [n, c, len]) (channels : 0 < c) (positions : 0 < len) :
    ∃ u' v', adaptiveAvgPool1d 1 u = .ok u' ∧ adaptiveAvgPool1d 1 v = .ok v' ∧ u'.shape = [n, c, 1] ∧
      RowOf u' b v' := by
  obtain ⟨u', computed, uShape, uGet⟩ := adaptiveAvgPool1d_one shape channels positions
  obtain ⟨v', computed', vShape, vGet⟩ := adaptiveAvgPool1d_one (row.shape_of shape) channels positions
  refine ⟨u', v', computed, computed', uShape, rowOf_three (row.lt_of shape) uShape vShape
    fun ch i hch hi => ?_⟩
  obtain rfl : i = 0 := by omega
  rw [vGet 0 ch Nat.one_pos hch, uGet b ch (row.lt_of shape) hch]
  congr 1
  exact Finset.sum_congr rfl fun l inside =>
    row.get [ch, l] (by simp [shape, hch, Finset.mem_range.mp inside])

/-- Batch normalisation on its running statistics. -/
theorem BatchNorm1d.forward_row (S : Scalars α) {numFeatures : Nat} (bn : BatchNorm1d α numFeatures)
    {u v : Tensor α} {b n len : Nat} (row : RowOf u b v) (shape : u.shape = [n, numFeatures, len]) :
    ∃ u' v', bn.forward S false u = .ok u' ∧ bn.forward S false v = .ok v' ∧ u'.shape = u.shape ∧
      RowOf u' b v' := by
  have shape' := row.shape_of shape
  obtain ⟨u', computed, uShape, uGet⟩ := bn.forward_spec S false shape nofun
  obtain ⟨v', computed', vShape, vGet⟩ := bn.forward_spec S false shape' nofun
  refine ⟨u', v', computed, computed', uShape,
    ⟨by rw [uShape]; exact row.lt, by rw [vShape, row.shape, uShape], fun index inside => ?_⟩⟩
  rw [uShape] at inside
  rw [vGet rfl _ (by rw [row.shape]; exact inBounds_cons.mpr ⟨Nat.one_pos, inside⟩),
    uGet rfl _ (by rw [row.cons_shape]; exact inBounds_cons.mpr ⟨row.lt, inside⟩), row.get _ inside]
  rfl

end Torch
end Neurlang
