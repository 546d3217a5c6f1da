import Mathlib
import Neurlang.Data.Json

namespace Neurlang
namespace Torch

/-!
# Tensors over row-major storage

A tensor is a shape and a row-major storage: the element at a multi-index
sits at the index's row-major offset.  Every operation here builds its result
in fresh row-major storage, so `contiguous()` changes nothing, and `view`
reads the storage of its argument under the new shape, as PyTorch's `view` of a
contiguous tensor does.  Every `view` of the modelled code is of such a
tensor: the one after `transpose` in the attention follows `.contiguous()`.

The operations raise what PyTorch raises on a bad shape or index; of each
exception only its Python class is kept.
-/

/-- The exceptions the modelled tensor calls raise. -/
inductive TorchError where
  | runtimeError
  | indexError
  | valueError
  deriving DecidableEq, Repr

/-- A tensor: its sizes and its row-major storage.  Storage past the last
element is never read. -/
structure Tensor (α : Type) where
  shape : List Nat
  data : Nat -> α

namespace Tensor

variable {α β γ : Type}

/-! ## Multi-indices and offsets -/

/-- The row-major offset of a multi-index. -/
def offset : List Nat -> List Nat -> Nat
  | _ :: sizes, i :: index => i * sizes.prod + offset sizes index
  | _, _ => 0

/-- The multi-index at a row-major offset. -/
def unravel : List Nat -> Nat -> List Nat
  | [], _ => []
  | _ :: sizes, k => k / sizes.prod :: unravel sizes (k % sizes.prod)

/-- A multi-index inside a shape: one coordinate per dimension, each below
its size. -/
def InBounds (shape index : List Nat) : Prop :=
  List.Forall₂ (fun size i => i < size) shape index

instance (shape index : List Nat) : Decidable (InBounds shape index) :=
  inferInstanceAs (Decidable (List.Forall₂ _ shape index))

@[simp] theorem inBounds_nil : InBounds [] [] := List.Forall₂.nil

@[simp] theorem inBounds_cons {size i : Nat} {shape index : List Nat} :
    InBounds (size :: shape) (i :: index) ↔ i < size ∧ InBounds shape index :=
  List.forall₂_cons

@[simp] theorem not_inBounds_cons_nil {size : Nat} {shape : List Nat} :
    ¬ InBounds (size :: shape) [] := by
  simp [InBounds]

@[simp] theorem not_inBounds_nil_cons {i : Nat} {index : List Nat} : ¬ InBounds [] (i :: index) := by
  simp [InBounds]

theorem InBounds.length_eq {shape index : List Nat} (inside : InBounds shape index) :
    index.length = shape.length :=
  (List.Forall₂.length_eq inside).symm

theorem inBounds_append {front index : List Nat} (same : index.length = front.length)
    {back rest : List Nat} :
    InBounds (front ++ back) (index ++ rest) ↔ InBounds front index ∧ InBounds back rest := by
  induction front generalizing index with
  | nil => simp [List.length_eq_zero.mp same, InBounds]
  | cons size front ih =>
      cases index with
      | nil => simp at same
      | cons i index => simp [ih (Nat.succ.inj same), and_assoc]

theorem offset_lt {shape index : List Nat} (inside : InBounds shape index) :
    offset shape index < shape.prod := by
  induction inside with
  | nil => simp [offset]
  | @cons size i sizes index below _ ih =>
      rw [offset, List.prod_cons]
      calc i * sizes.prod + offset sizes index
          < i * sizes.prod + sizes.prod := by omega
        _ = (i + 1) * sizes.prod := by ring
        _ ≤ size * sizes.prod := Nat.mul_le_mul_right _ below

theorem unravel_offset {shape index : List Nat} (inside : InBounds shape index) :
    unravel shape (offset shape index) = index := by
  induction inside with
  | nil => rfl
  | @cons size i sizes index _ rest ih =>
      have below := offset_lt rest
      have positive : 0 < sizes.prod := by omega
      rw [offset, unravel, Nat.add_comm, Nat.add_mul_div_right _ _ positive,
        Nat.add_mul_mod_self_right, Nat.div_eq_of_lt below, Nat.mod_eq_of_lt below, ih,
        Nat.zero_add]

theorem inBounds_unravel {shape : List Nat} {k : Nat} (below : k < shape.prod) :
    InBounds shape (unravel shape k) := by
  induction shape generalizing k with
  | nil => exact List.Forall₂.nil
  | cons size sizes ih =>
      rw [List.prod_cons] at below
      have positive : 0 < sizes.prod := Nat.pos_of_ne_zero fun zero => by simp [zero] at below
      exact inBounds_cons.mpr ⟨(Nat.div_lt_iff_lt_mul positive).mpr below,
        ih (Nat.mod_lt _ positive)⟩

theorem offset_unravel {shape : List Nat} {k : Nat} (below : k < shape.prod) :
    offset shape (unravel shape k) = k := by
  induction shape generalizing k with
  | nil => simp at below; simp [offset, below]
  | cons size sizes ih =>
      rw [List.prod_cons] at below
      have positive : 0 < sizes.prod := Nat.pos_of_ne_zero fun zero => by simp [zero] at below
      rw [unravel, offset, ih (Nat.mod_lt _ positive), Nat.div_add_mod']

/-! ## Reading and building tensors -/

@[simp] theorem mk_shape_data (t : Tensor α) : (⟨t.shape, t.data⟩ : Tensor α) = t := rfl

/-- The number of elements. -/
def numel (t : Tensor α) : Nat := t.shape.prod

/-- The element at a multi-index. -/
def get (t : Tensor α) (index : List Nat) : α := t.data (offset t.shape index)

/-- The tensor of a shape whose element at each multi-index is `f` of it. -/
def ofFun (shape : List Nat) (f : List Nat -> α) : Tensor α :=
  ⟨shape, fun k => f (unravel shape k)⟩

@[simp] theorem shape_ofFun (shape : List Nat) (f : List Nat -> α) :
    (ofFun shape f).shape = shape := rfl

theorem get_ofFun {shape index : List Nat} (f : List Nat -> α) (inside : InBounds shape index) :
    (ofFun shape f).get index = f index := by
  simp only [get, ofFun, unravel_offset inside]

/-- Two tensors PyTorch cannot tell apart: one shape, and the same element at
every multi-index inside it. -/
structure Agree (t u : Tensor α) : Prop where
  shape : t.shape = u.shape
  get : ∀ index, InBounds t.shape index -> t.get index = u.get index

theorem Agree.refl (t : Tensor α) : Agree t t := ⟨rfl, fun _ _ => rfl⟩

/-- Elementwise application, as every pointwise PyTorch function computes it. -/
def map (f : α -> β) (t : Tensor α) : Tensor β := ⟨t.shape, fun k => f (t.data k)⟩

@[simp] theorem shape_map (f : α -> β) (t : Tensor α) : (t.map f).shape = t.shape := rfl

@[simp] theorem get_map (f : α -> β) (t : Tensor α) (index : List Nat) :
    (t.map f).get index = f (t.get index) := rfl

/-! ## Views -/

/-- `infer_size`: the sizes `view` gives a tensor of `numel` elements for the
requested ones, where `-1`, at most once, stands for the size that keeps the
element count. -/
def inferSize (sizes : List Int) (numel : Nat) : Except TorchError (List Nat) :=
  let newsize := ((sizes.filter (· ≠ -1)).map Int.toNat).prod
  if sizes.any (· < -1) || 1 < sizes.count (-1) then .error .runtimeError
  else if sizes.count (-1) = 0 then
    if numel = newsize then .ok (sizes.map Int.toNat) else .error .runtimeError
  else if 0 < newsize ∧ numel % newsize = 0 then
    .ok (sizes.map fun size => if size = -1 then numel / newsize else size.toNat)
  else .error .runtimeError

/-- `t.view(*sizes)`: the same storage under the inferred sizes. -/
def view (t : Tensor α) (sizes : List Int) : Except TorchError (Tensor α) := do
  let shape ← inferSize sizes t.numel
  pure ⟨shape, t.data⟩

/-! ## Dimensions -/

/-- A dimension as PyTorch reads it for a tensor of rank `rank`: negative
dimensions count from the end. -/
def wrapDim (dim : Int) (rank : Nat) : Except TorchError Nat :=
  if -(rank : Int) ≤ dim ∧ dim < rank then .ok (if dim < 0 then (dim + rank).toNat else dim.toNat)
  else .error .indexError

/-- A list with the entries at `d0` and `d1` exchanged. -/
def swapAt (index : List Nat) (d0 d1 : Nat) : List Nat :=
  (index.set d0 (index.getD d1 0)).set d1 (index.getD d0 0)

/-- `t.transpose(dim0, dim1)`. -/
def transpose (t : Tensor α) (dim0 dim1 : Int) : Except TorchError (Tensor α) := do
  let d0 ← wrapDim dim0 t.shape.length
  let d1 ← wrapDim dim1 t.shape.length
  pure (ofFun (swapAt t.shape d0 d1) fun index => t.get (swapAt index d0 d1))

/-- `t.permute(*dims)`: dimension `i` of the result is dimension `dims[i]` of `t`. -/
def permute (t : Tensor α) (dims : List Int) : Except TorchError (Tensor α) := do
  if dims.length ≠ t.shape.length then throw .runtimeError
  let wrapped ← dims.mapM (wrapDim · t.shape.length)
  if !wrapped.Nodup then throw .runtimeError
  pure (ofFun (wrapped.map (t.shape.getD · 0)) fun index =>
    t.get ((List.range t.shape.length).map fun d => index.getD (wrapped.indexOf d) 0))

/-! ## Broadcasting -/

/-- The coordinates an operand of sizes `shape` reads at a multi-index of the
broadcast result: aligned at the last dimension, and 0 on a dimension of size 1. -/
def broadcastIndex (shape index : List Nat) : List Nat :=
  List.zipWith (fun size i => if size = 1 then 0 else i) shape (index.drop (index.length - shape.length))

/-- Broadcasting of two shapes given last dimension first. -/
def broadcastRev : List Nat -> List Nat -> Except TorchError (List Nat)
  | [], sizes => .ok sizes
  | sizes, [] => .ok sizes
  | a :: s, b :: t => do
      let rest ← broadcastRev s t
      if a = b ∨ b = 1 then pure (a :: rest)
      else if a = 1 then pure (b :: rest)
      else throw .runtimeError

/-- The shape two operands broadcast to. -/
def broadcastShape (s t : List Nat) : Except TorchError (List Nat) :=
  (broadcastRev s.reverse t.reverse).map List.reverse

/-- A binary elementwise operation with broadcasting, as `+`, `*` and `/` on
tensors compute it. -/
def zipWith (f : α -> β -> γ) (t : Tensor α) (u : Tensor β) : Except TorchError (Tensor γ) := do
  let shape ← broadcastShape t.shape u.shape
  pure (ofFun shape fun index =>
    f (t.get (broadcastIndex t.shape index)) (u.get (broadcastIndex u.shape index)))

/-- `t.expand(*sizes)`: `-1` keeps a size, a size-1 dimension is repeated, and
new leading dimensions are added. -/
def expand (t : Tensor α) (sizes : List Int) : Except TorchError (Tensor α) := do
  if sizes.length < t.shape.length then throw .runtimeError
  let lead := sizes.length - t.shape.length
  let shape ← (List.range sizes.length).mapM fun i =>
    let size := sizes.getD i 0
    if i < lead then
      if 0 ≤ size then .ok size.toNat else .error .runtimeError
    else
      let old := t.shape.getD (i - lead) 0
      if size = -1 ∨ size = old then .ok old
      else if old = 1 ∧ 0 ≤ size then .ok size.toNat
      else .error .runtimeError
  pure (ofFun shape fun index => t.get (broadcastIndex t.shape index))

/-- `t[:, :stop]` and the like: dimension `dim` cut to its first `stop`
entries, clamped as Python clamps a slice. -/
def sliceTo (t : Tensor α) (dim stop : Nat) : Except TorchError (Tensor α) :=
  if dim < t.shape.length then
    .ok (ofFun (t.shape.set dim (min stop (t.shape.getD dim 0))) t.get)
  else .error .indexError

/-- `t.size(dim)`. -/
def size (t : Tensor α) (dim : Int) : Except TorchError Nat := do
  let d ← wrapDim dim t.shape.length
  pure (t.shape.getD d 0)

/-! ## Reductions -/

/-- `t.sum()`. -/
def sum [AddCommMonoid α] (t : Tensor α) : α :=
  ∑ k ∈ Finset.range t.numel, t.data k

/-- `t.mean()`. -/
def mean [DivisionRing α] (t : Tensor α) : α := t.sum / t.numel

/-! ## Shapes of the shape operations -/

theorem broadcastRev_self (sizes : List Nat) : broadcastRev sizes sizes = .ok sizes := by
  induction sizes with
  | nil => rfl
  | cons size sizes ih => simp [broadcastRev, ih]

theorem broadcastShape_self (sizes : List Nat) : broadcastShape sizes sizes = .ok sizes := by
  simp [broadcastShape, broadcastRev_self, Except.map]

/-- An operand that has the result's shape reads the result's own index. -/
theorem broadcastIndex_of_inBounds {shape index : List Nat} (inside : InBounds shape index) :
    broadcastIndex shape index = index := by
  have drop : index.drop (index.length - shape.length) = index := by
    rw [inside.length_eq, Nat.sub_self, List.drop_zero]
  rw [broadcastIndex, drop]
  clear drop
  induction inside with
  | nil => rfl
  | @cons size i sizes index below _ ih =>
      rw [List.zipWith_cons_cons, ih]
      congr 1
      split <;> omega

/-- An operand of batch size 1 reads row 0 at every row of the result. -/
theorem broadcastIndex_one {rest index : List Nat} (inside : InBounds rest index) (b : Nat) :
    broadcastIndex (1 :: rest) (b :: index) = 0 :: index := by
  have zipped := broadcastIndex_of_inBounds inside
  have length := inside.length_eq
  simp only [broadcastIndex, List.length_cons, length, Nat.sub_self, List.drop_zero] at zipped ⊢
  simp [zipped]

theorem wrapDim_of_lt {dim rank : Nat} (lt : dim < rank) : wrapDim dim rank = .ok dim := by
  rw [wrapDim, if_pos ⟨by omega, by omega⟩, if_neg (by omega), Int.toNat_natCast]

/-- Dimension `-1` of a tensor of rank `rank + 1` is its last, `rank`. -/
theorem wrapDim_neg_one (rank : Nat) : wrapDim (-1) (rank + 1) = .ok rank := by
  rw [wrapDim, if_pos ⟨by omega, by omega⟩, if_pos (by omega)]
  congr
  omega

theorem transpose_of_wrapDim {t : Tensor α} {dim0 dim1 : Int} {d0 d1 : Nat}
    (wrap0 : wrapDim dim0 t.shape.length = .ok d0) (wrap1 : wrapDim dim1 t.shape.length = .ok d1) :
    t.transpose dim0 dim1 = .ok (ofFun (swapAt t.shape d0 d1) fun index => t.get (swapAt index d0 d1)) := by
  simp [transpose, wrap0, wrap1]

theorem size_zero {t : Tensor α} {rows : Nat} {rest : List Nat} (shape : t.shape = rows :: rest) :
    t.size 0 = .ok rows := by
  rw [size, shape, show wrapDim 0 (rows :: rest).length = .ok 0 from wrapDim_of_lt (by simp)]
  rfl

theorem size_neg_one {t : Tensor α} {front : List Nat} {last : Nat} (shape : t.shape = front ++ [last]) :
    t.size (-1) = .ok last := by
  rw [size, shape, List.length_append, List.length_singleton, wrapDim_neg_one]
  simp

theorem size_one {t : Tensor α} {rows cols : Nat} {rest : List Nat}
    (shape : t.shape = rows :: cols :: rest) : t.size 1 = .ok cols := by
  rw [size, shape, show wrapDim 1 (rows :: cols :: rest).length = .ok 1 from wrapDim_of_lt (by simp)]
  rfl

/-- `permute(0, 2, 1)` of a rank-3 tensor exchanges its last two dimensions. -/
theorem permute_021 {t : Tensor α} {a b c : Nat} (shape : t.shape = [a, b, c]) :
    t.permute [0, 2, 1] =
      .ok (ofFun [a, c, b] fun index => t.get [index.getD 0 0, index.getD 2 0, index.getD 1 0]) := by
  have wrapped : [(0 : Int), 2, 1].mapM (wrapDim · 3) = .ok [0, 2, 1] := rfl
  simp only [permute, shape, List.length_cons, List.length_nil, Nat.reduceAdd, ne_eq, not_true_eq_false,
    ↓reduceIte, wrapped]
  rfl

/-- `expand(batch, -1, -1)` of `(1, rows, cols)` repeats the one row. -/
theorem expand_batch {t : Tensor α} {rows cols : Nat} (shape : t.shape = [1, rows, cols])
    (batch : Nat) :
    t.expand [batch, -1, -1] =
      .ok (ofFun [batch, rows, cols] fun index => t.get (broadcastIndex [1, rows, cols] index)) := by
  have first : (if (batch : Int) = -1 ∨ (batch : Int) = ((1 : Nat) : Int) then Except.ok 1
      else if 0 ≤ (batch : Int) then Except.ok (batch : Int).toNat else .error .runtimeError) =
      (Except.ok batch : Except TorchError Nat) := by
    by_cases one : batch = 1
    · rw [if_pos (Or.inr (congrArg _ one)), one]
    · rw [if_neg (by omega), if_pos (by omega), Int.toNat_natCast]
  simp only [expand, shape, List.length_cons, List.length_nil, Nat.reduceAdd, lt_self_iff_false, ↓reduceIte,
    Nat.sub_self, List.range_succ, List.range_zero, List.nil_append, List.cons_append, List.mapM_cons,
    List.mapM_nil, List.getD_cons_zero, List.getD_cons_succ, Nat.not_lt_zero, Nat.sub_zero, true_and, true_or, first]
  rfl

theorem zipWith_same {t : Tensor α} {u : Tensor β} (f : α -> β -> γ) (same : t.shape = u.shape) :
    t.zipWith f u = .ok (ofFun t.shape fun index =>
      f (t.get (broadcastIndex t.shape index)) (u.get (broadcastIndex u.shape index))) := by
  simp [zipWith, same, broadcastShape_self]

/-- Two operands of one shape combine element by element, storage included. -/
theorem zipWith_same_data {t : Tensor α} {u : Tensor β} (f : α -> β -> γ) (same : t.shape = u.shape) :
    ∃ w, t.zipWith f u = .ok w ∧ w.shape = t.shape ∧ ∀ k < t.numel, w.data k = f (t.data k) (u.data k) := by
  refine ⟨_, zipWith_same f same, rfl, fun k below => ?_⟩
  have inside := inBounds_unravel below
  show f (t.get (broadcastIndex t.shape (unravel t.shape k))) (u.get (broadcastIndex u.shape (unravel t.shape k))) = _
  rw [broadcastIndex_of_inBounds inside, ← same, broadcastIndex_of_inBounds inside]
  simp only [Tensor.get, ← same, offset_unravel below]

theorem broadcastRev_one (sizes : List Nat) (rows : Nat) :
    broadcastRev (sizes ++ [rows]) (sizes ++ [1]) = .ok (sizes ++ [rows]) := by
  induction sizes with
  | nil => simp [broadcastRev]
  | cons size sizes ih => simp [broadcastRev, ih]

/-- A `(1, *rest)` operand broadcasts along the batch of a `(rows, *rest)` one. -/
theorem zipWith_batch {t : Tensor α} {u : Tensor β} (f : α -> β -> γ) {rows : Nat}
    {rest : List Nat} (shape : t.shape = rows :: rest) (shape' : u.shape = 1 :: rest) :
    t.zipWith f u = .ok (ofFun (rows :: rest) fun index =>
      f (t.get (broadcastIndex t.shape index)) (u.get (broadcastIndex u.shape index))) := by
  have broadcast : broadcastShape t.shape u.shape = .ok (rows :: rest) := by
    simp [broadcastShape, shape, shape', broadcastRev_one, Except.map]
  simp [zipWith, broadcast]

/-- `pe[:, :len]` of a `(1, max_len, d)` table, for `len ≤ max_len`. -/
theorem sliceTo_table {t : Tensor α} {maxLen width len : Nat} (shape : t.shape = [1, maxLen, width])
    (within : len ≤ maxLen) : t.sliceTo 1 len = .ok (ofFun [1, len, width] t.get) := by
  simp [sliceTo, shape, Nat.min_eq_left within]

/-! ## Requested sizes given as naturals -/

theorem natCast_ne_neg_one (n : Nat) : (n : Int) ≠ -1 := by omega

theorem natCast_not_lt_neg_one (n : Nat) : ¬ (n : Int) < -1 := by omega

theorem count_map_natCast (sizes : List Nat) : (sizes.map (Nat.cast : Nat -> Int)).count (-1) = 0 :=
  List.count_eq_zero.mpr (by simp [natCast_ne_neg_one])

theorem filter_map_natCast (sizes : List Nat) :
    ((sizes.map (Nat.cast : Nat -> Int)).filter (· ≠ -1)).map Int.toNat = sizes := by
  simp [List.filter_map, Function.comp_def, natCast_ne_neg_one]

theorem filter_map_natCast_infer (front back : List Nat) :
    ((front.map (Nat.cast : Nat -> Int) ++ -1 :: back.map Nat.cast).filter (· ≠ -1)).map
      Int.toNat = front ++ back := by
  simp [List.filter_map, Function.comp_def, natCast_ne_neg_one, List.filter_cons]

/-- Sizes without `-1` are taken as given when they keep the element count. -/
theorem inferSize_natCast (sizes : List Nat) :
    inferSize (sizes.map Nat.cast) sizes.prod = .ok sizes := by
  unfold inferSize
  simp only [filter_map_natCast]
  simp [count_map_natCast, natCast_not_lt_neg_one, Function.comp_def]

/-- One `-1` among natural sizes stands for the element count divided by
their product. -/
theorem inferSize_infer (front back : List Nat) (numel : Nat) (pos : 0 < front.prod * back.prod)
    (divides : numel % (front.prod * back.prod) = 0) :
    inferSize (front.map Nat.cast ++ -1 :: back.map Nat.cast) numel =
      .ok (front ++ numel / (front.prod * back.prod) :: back) := by
  unfold inferSize
  simp only [filter_map_natCast_infer, List.prod_append]
  simp [count_map_natCast, natCast_not_lt_neg_one, natCast_ne_neg_one, Function.comp_def, pos,
    divides]

theorem view_of_inferSize {t : Tensor α} {sizes : List Int} {shape : List Nat}
    (inferred : inferSize sizes t.numel = .ok shape) : t.view sizes = .ok ⟨shape, t.data⟩ := by
  simp [view, inferred]

/-- A `view` with one `-1` between natural sizes `front` and `back`, of a tensor
of `n` times their product elements, with that product at least one. -/
theorem view_infer {t : Tensor α} (front back : List Nat) {n : Nat}
    (numel : t.numel = n * (front.prod * back.prod)) (pos : 0 < front.prod * back.prod) :
    t.view (front.map Nat.cast ++ -1 :: back.map Nat.cast) = .ok ⟨front ++ n :: back, t.data⟩ := by
  have inferred := inferSize_infer front back t.numel pos (by rw [numel, Nat.mul_mod_left])
  rw [numel, Nat.mul_div_cancel _ pos, ← numel] at inferred
  exact view_of_inferSize inferred

/-- `view(-1)` flattens. -/
theorem view_flat (t : Tensor α) : t.view [-1] = .ok ⟨[t.numel], t.data⟩ :=
  view_infer [] [] (by simp) (by simp)

/-- `view(-1, last)` of `(*front, last)` with `last ≥ 1` merges the front
dimensions. -/
theorem view_rows {t : Tensor α} {front : List Nat} {last : Nat} (shape : t.shape = front ++ [last])
    (pos : 0 < last) : t.view [-1, (last : Int)] = .ok ⟨[front.prod, last], t.data⟩ :=
  view_infer [] [last] (by simp [numel, shape]) (by simpa using pos)

/-- `view(rows, slots, -1)` of `(rows, slots * width)` with `rows, slots ≥ 1`. -/
theorem view_split_last {t : Tensor α} {rows slots width : Nat} (shape : t.shape = [rows, slots * width])
    (nonempty : 0 < rows) (slotted : 0 < slots) :
    t.view [(rows : Int), slots, -1] = .ok ⟨[rows, slots, width], t.data⟩ :=
  view_infer [rows, slots] [] (by simp [numel, shape]; ring) (by simp [nonempty, slotted])

/-! ## One row of a batch -/

/-- Row `b` of `t` as a batch of one: `t[b:b+1]` for `b` below the batch size. -/
def row (t : Tensor α) (b : Nat) : Tensor α :=
  ofFun (1 :: t.shape.tail) fun index => t.get (b :: index.tail)

/-- `v` is row `b` of the batch `u`, kept as a batch of one. -/
structure RowOf (u : Tensor α) (b : Nat) (v : Tensor α) : Prop where
  lt : b < u.shape.headD 0
  shape : v.shape = 1 :: u.shape.tail
  get : ∀ index, InBounds u.shape.tail index -> v.get (0 :: index) = u.get (b :: index)

theorem rowOf_row {t : Tensor α} {b : Nat} (lt : b < t.shape.headD 0) : RowOf t b (t.row b) :=
  ⟨lt, rfl, fun _ inside => get_ofFun _ (inBounds_cons.mpr ⟨Nat.one_pos, inside⟩)⟩

theorem RowOf.cons_shape {u v : Tensor α} {b : Nat} (row : RowOf u b v) :
    u.shape = u.shape.headD 0 :: u.shape.tail := by
  have lt := row.lt
  cases hshape : u.shape with
  | nil => simp [hshape] at lt
  | cons rows rest => rfl

/-- The row relation read on storage: the row's elements are the batch's
elements from offset `b` times the row size on. -/
theorem RowOf.data {u v : Tensor α} {b : Nat} (row : RowOf u b v) {k : Nat}
    (below : k < u.shape.tail.prod) :
    v.data k = u.data (b * u.shape.tail.prod + k) := by
  have inside := inBounds_unravel below
  have read := row.get _ inside
  simp only [Tensor.get, row.shape, offset, Nat.zero_mul, Nat.zero_add, offset_unravel below] at read
  rw [read, row.cons_shape]
  simp only [offset, offset_unravel below, List.headD_cons, List.tail_cons]

theorem rowOf_of_data {u v : Tensor α} {b : Nat} (lt : b < u.shape.headD 0)
    (shape : v.shape = 1 :: u.shape.tail)
    (data : ∀ k < u.shape.tail.prod, v.data k = u.data (b * u.shape.tail.prod + k)) :
    RowOf u b v := by
  refine ⟨lt, shape, fun index inside => ?_⟩
  have cons : u.shape = u.shape.headD 0 :: u.shape.tail := by
    cases hshape : u.shape with
    | nil => simp [hshape] at lt
    | cons rows rest => rfl
  simp only [get, shape, offset, Nat.zero_mul, Nat.zero_add]
  rw [data _ (offset_lt inside), cons]
  rfl

end Tensor

end Torch
end Neurlang
