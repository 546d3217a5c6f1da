import Neurlang.Torch.Functional
import Neurlang.Data.Instruction

namespace Neurlang
namespace Model

/-!
# `ParallelInstructionLoss`

The loss flattens every head's logits to `(B * S, C)`, takes the per-slot
cross-entropy, and averages it over all slots for the `valid` head and over
the valid slots for the seven others, whose losses are multiplied by the
`valid` targets first.  Cross-entropy is `log (∑ exp)` minus the target's
logit, with `exp` and `log` the parameters `Scalars` of the field standing for
the reals.  The result: what a masked head's logits and targets hold at a slot
whose `valid` target is `0` never reaches the loss.
-/

open Torch Tensor
open Data (Head)

variable {α : Type} [LinearOrderedField α]

/-- `nn.CrossEntropyLoss(reduction='none')` on `(N, C)` logits and `(N,)`
targets: `log (∑ exp)` of the slot's logits minus its target's logit, `0` at
the `ignore_index` `-100`.  Another target outside `[0, C)` raises
`IndexError`, and batch sizes that differ raise `ValueError`. -/
def crossEntropy (S : Scalars α) (input : Tensor α) (target : Tensor Int) : Except TorchError (Tensor α) :=
  match input.shape, target.shape with
  | [n, classes], [m] =>
      if n ≠ m then .error .valueError
      else if (List.range n).all fun i =>
          target.get [i] = -100 ∨ (0 ≤ target.get [i] ∧ target.get [i] < classes) then
        .ok (ofFun [n] fun index =>
          let i := index.getD 0 0
          if target.get [i] = -100 then 0
          else S.log (∑ j ∈ Finset.range classes, S.exp (input.get [i, j])) -
            input.get [i, (target.get [i]).toNat])
      else .error .indexError
  | _, _ => .error .runtimeError

/-- In-range targets: the cross-entropy of every slot. -/
theorem crossEntropy_spec (S : Scalars α) {input : Tensor α} {target : Tensor Int} {n classes : Nat}
    (inputShape : input.shape = [n, classes]) (targetShape : target.shape = [n])
    (inRange : ∀ i < n, 0 ≤ target.get [i] ∧ target.get [i] < classes) :
    ∃ l, crossEntropy S input target = .ok l ∧ l.shape = [n] ∧
      ∀ i < n, l.get [i] = S.log (∑ j ∈ Finset.range classes, S.exp (input.get [i, j])) -
        input.get [i, (target.get [i]).toNat] := by
  have checked : ((List.range n).all fun i =>
      target.get [i] = -100 ∨ (0 ≤ target.get [i] ∧ target.get [i] < classes)) = true :=
    List.all_eq_true.mpr fun i member => by simp [inRange i (List.mem_range.mp member)]
  simp only [crossEntropy, inputShape, targetShape]
  rw [if_neg (not_not.mpr rfl), if_pos checked]
  refine ⟨_, rfl, rfl, fun i below => ?_⟩
  have nonneg := (inRange i below).1
  rw [get_ofFun _ (by simp [below])]
  simp only [List.getD_cons_zero]
  rw [if_neg (by omega)]

/-- Targets in range or at the ignore index pass the check: one loss a slot. -/
theorem crossEntropy_ok (S : Scalars α) {input : Tensor α} {target : Tensor Int} {n classes : Nat}
    (inputShape : input.shape = [n, classes]) (targetShape : target.shape = [n])
    (accepted : ∀ i < n, target.get [i] = -100 ∨ (0 ≤ target.get [i] ∧ target.get [i] < classes)) :
    ∃ l, crossEntropy S input target = .ok l ∧ l.shape = [n] := by
  have checked : ((List.range n).all fun i =>
      target.get [i] = -100 ∨ (0 ≤ target.get [i] ∧ target.get [i] < classes)) = true :=
    List.all_eq_true.mpr fun i member => decide_eq_true (accepted i (List.mem_range.mp member))
  simp only [crossEntropy, inputShape, targetShape]
  rw [if_neg (not_not.mpr rfl), if_pos checked]
  exact ⟨_, rfl, rfl⟩

/-- `ParallelInstructionLoss(valid_weight, opcode_weight, mode_weight,
register_weight, imm_weight)`. -/
structure ParallelInstructionLoss (α : Type) where
  validWeight : α
  opcodeWeight : α
  modeWeight : α
  registerWeight : α
  immWeight : α

namespace ParallelInstructionLoss

/-- The constructor's default weights `1.0, 2.0, 1.0, 1.0, 0.5`. -/
def defaults : ParallelInstructionLoss α := ⟨1, 2, 1, 1, 1 / 2⟩

/-- `self.weights[name]`: the register weight for `rd`, `rs1` and `rs2`, the
immediate weight for `has_imm` and `imm_bin`. -/
def weight (loss : ParallelInstructionLoss α) : Head -> α
  | .valid => loss.validWeight
  | .opcode => loss.opcodeWeight
  | .mode => loss.modeWeight
  | .rd | .rs1 | .rs2 => loss.registerWeight
  | .hasImm | .immBin => loss.immWeight

/-- One pass of the loop of `forward`: head `name`'s loss, averaged over every
slot for `valid` and, with `1e-8` added to the count, over the valid slots
for the others. -/
def headLoss (S : Scalars α) (name : Head) (logits : Tensor α) (targets : Tensor Int)
    (validMask : Tensor α) : Except TorchError α := do
  let logit ← logits.view [-1, ((← logits.size (-1) : Nat) : Int)]
  let target ← targets.view [-1]
  let loss ← (← crossEntropy S logit target).view (targets.shape.map Nat.cast)
  if name ≠ .valid then
    let masked ← loss.zipWith (· * ·) validMask
    pure (masked.sum / (validMask.sum + 1 / 100000000))
  else
    pure loss.mean

/-- `forward(logits, targets)`: the weighted total and the `losses` dict, the
eight heads' losses by key in the loop's order followed by `'total'`. -/
def forward (S : Scalars α) (loss : ParallelInstructionLoss α) (logits : Head -> Tensor α)
    (targets : Head -> Tensor Int) : Except TorchError (α × List (String × α)) := do
  let validMask := (targets .valid).map (Int.cast : Int -> α)
  let (total, losses) ← Head.all.foldlM (fun (acc : α × List (String × α)) name => do
      let value ← headLoss S name (logits name) (targets name) validMask
      pure (acc.1 + loss.weight name * value, acc.2 ++ [(name.key, value)])) (0, [])
  pure (total, losses ++ [("total", total)])

/-- The cross-entropy of flat slot `k` of `(B * S, C)` logits read from
storage. -/
def slotLoss (S : Scalars α) (logits : Tensor α) (targets : Tensor Int) (classes k : Nat) : α :=
  S.log (∑ j ∈ Finset.range classes, S.exp (logits.data (k * classes + j))) -
    logits.data (k * classes + (targets.data k).toNat)

omit [LinearOrderedField α] in
/-- The views `headLoss` takes of logits `(B, S, C)` with `C ≥ 1` and targets
`(B, S)`: the logits' rows and the flat targets, and the per-slot losses back
in the targets' shape, each on the same storage. -/
theorem headLoss_views {logits : Tensor α} {targets : Tensor Int} {batch slots classes : Nat}
    (logitShape : logits.shape = [batch, slots, classes]) (targetShape : targets.shape = [batch, slots])
    (pos : 0 < classes) :
    logits.size (-1) = .ok classes ∧
      logits.view [-1, (classes : Int)] = .ok ⟨[batch * slots, classes], logits.data⟩ ∧
      targets.view [-1] = .ok ⟨[batch * slots], targets.data⟩ ∧
      ∀ l : Tensor α, l.shape = [batch * slots] ->
        l.view (targets.shape.map Nat.cast) = .ok ⟨[batch, slots], l.data⟩ := by
  have split : logits.shape = [batch, slots] ++ [classes] := logitShape
  refine ⟨size_neg_one split, by simpa using view_rows split pos,
    by simpa [numel, targetShape] using view_flat targets, fun l lShape => ?_⟩
  rw [targetShape]
  exact view_of_inferSize (by simpa [numel, lShape] using inferSize_natCast [batch, slots])

/-- A head's logits `(B, S, C)` with `C ≥ 1` and in-range targets `(B, S)`:
the slots' cross-entropies averaged over all slots for `valid`, and weighted by
the mask over the mask's sum plus `1e-8` for the other heads. -/
theorem headLoss_eq (S : Scalars α) (name : Head) {logits : Tensor α} {targets : Tensor Int}
    {validMask : Tensor α} {batch slots classes : Nat} (logitShape : logits.shape = [batch, slots, classes])
    (targetShape : targets.shape = [batch, slots]) (maskShape : validMask.shape = [batch, slots])
    (pos : 0 < classes) (inRange : ∀ k < batch * slots, 0 ≤ targets.data k ∧ targets.data k < classes) :
    headLoss S name logits targets validMask = .ok
      (if name ≠ .valid then
        (∑ k ∈ Finset.range (batch * slots), slotLoss S logits targets classes k * validMask.data k) /
          (∑ k ∈ Finset.range (batch * slots), validMask.data k + 1 / 100000000)
      else (∑ k ∈ Finset.range (batch * slots), slotLoss S logits targets classes k) /
        ((batch * slots : Nat) : α)) := by
  obtain ⟨size, rows, flat, views⟩ := headLoss_views logitShape targetShape pos
  obtain ⟨l, computed, lShape, lGet⟩ := crossEntropy_spec S
    (show (⟨[batch * slots, classes], logits.data⟩ : Tensor α).shape = _ from rfl)
    (show (⟨[batch * slots], targets.data⟩ : Tensor Int).shape = _ from rfl)
    fun i below => by simpa [Tensor.get, offset] using inRange i below
  have lData : ∀ k < batch * slots, l.data k = slotLoss S logits targets classes k := fun k below => by
    simpa [Tensor.get, offset, lShape, slotLoss] using lGet k below
  have lSum : ∑ k ∈ Finset.range (batch * slots), l.data k =
      ∑ k ∈ Finset.range (batch * slots), slotLoss S logits targets classes k :=
    Finset.sum_congr rfl fun k member => lData k (Finset.mem_range.mp member)
  simp only [headLoss, size, Data.ok_bind, rows, flat, computed, views l lShape]
  by_cases valid : name = .valid
  · simp only [valid, ne_eq, not_true_eq_false, if_false, Tensor.mean, Tensor.sum, numel,
      List.prod_cons, List.prod_nil, mul_one, lSum]
    rfl
  · obtain ⟨w, zipped, wShape, wData⟩ := zipWith_same_data (· * ·)
      (show (⟨[batch, slots], l.data⟩ : Tensor α).shape = validMask.shape from maskShape.symm)
    have maskedSum : w.sum = ∑ k ∈ Finset.range (batch * slots), slotLoss S logits targets classes k * validMask.data k := by
      simp only [Tensor.sum, numel, wShape, List.prod_cons, List.prod_nil, mul_one]
      exact Finset.sum_congr rfl fun k member => by
        have below := Finset.mem_range.mp member
        rw [wData k (by simpa [numel] using below), lData k below]
    have maskSum : validMask.sum = ∑ k ∈ Finset.range (batch * slots), validMask.data k := by
      simp [Tensor.sum, numel, maskShape]
    simp only [valid, ne_eq, not_false_eq_true, if_true, zipped, Data.ok_bind, maskedSum, maskSum]
    rfl

/-- Logits `(B, S, C)` with `C ≥ 1` and targets `(B, S)` that the loss accepts,
each in `[0, C)` or the ignore index `-100`: the head's loss returns. -/
theorem headLoss_ok (S : Scalars α) (name : Head) {logits : Tensor α} {targets : Tensor Int}
    {validMask : Tensor α} {batch slots classes : Nat} (logitShape : logits.shape = [batch, slots, classes])
    (targetShape : targets.shape = [batch, slots]) (maskShape : validMask.shape = [batch, slots])
    (pos : 0 < classes)
    (accepted : ∀ k < batch * slots, targets.data k = -100 ∨ (0 ≤ targets.data k ∧ targets.data k < classes)) :
    ∃ value, headLoss S name logits targets validMask = .ok value := by
  obtain ⟨size, rows, flat, views⟩ := headLoss_views logitShape targetShape pos
  obtain ⟨l, computed, lShape⟩ := crossEntropy_ok S
    (show (⟨[batch * slots, classes], logits.data⟩ : Tensor α).shape = _ from rfl)
    (show (⟨[batch * slots], targets.data⟩ : Tensor Int).shape = _ from rfl)
    fun i below => by simpa [Tensor.get, offset] using accepted i below
  simp only [headLoss, size, Data.ok_bind, rows, flat, computed, views l lShape]
  by_cases valid : name = .valid
  · simp only [valid, ne_eq, not_true_eq_false, if_false]
    exact ⟨_, rfl⟩
  · obtain ⟨w, zipped, -⟩ := zipWith_same_data (· * ·)
      (show (⟨[batch, slots], l.data⟩ : Tensor α).shape = validMask.shape from maskShape.symm)
    simp only [valid, ne_eq, not_false_eq_true, if_true, zipped, Data.ok_bind]
    exact ⟨_, rfl⟩

/-- Every head's loss is the value `values` names: the forward pass returns the
weighted sum in the loop's order and the dict of the values. -/
theorem forward_eq (S : Scalars α) (loss : ParallelInstructionLoss α) {logits : Head -> Tensor α}
    {targets : Head -> Tensor Int} (values : Head -> α)
    (each : ∀ head, headLoss S head (logits head) (targets head) ((targets .valid).map (Int.cast : Int -> α)) =
      .ok (values head)) :
    let total := Head.all.foldl (fun total name => total + loss.weight name * values name) 0
    loss.forward S logits targets =
      .ok (total, Head.all.map (fun name => (name.key, values name)) ++ [("total", total)]) := by
  simp only [forward, Head.all, List.foldlM_cons, List.foldlM_nil, each, Data.ok_bind]
  rfl

/-- What a forward pass that returns gives: each head's loss, the dict of them
in the loop's order, and the weighted sum as `'total'`. -/
theorem forward_ok (S : Scalars α) (loss : ParallelInstructionLoss α) {logits : Head -> Tensor α}
    {targets : Head -> Tensor Int} {total : α} {losses : List (String × α)}
    (ran : loss.forward S logits targets = .ok (total, losses)) :
    ∃ values : Head -> α, total = Head.all.foldl (fun total name => total + loss.weight name * values name) 0 ∧
      losses = Head.all.map (fun name => (name.key, values name)) ++ [("total", total)] := by
  simp only [forward, Head.all, List.foldlM_cons, List.foldlM_nil, Data.bind_eq_ok, pure, Except.pure,
    Except.ok.injEq, exists_exists_and_eq_and, exists_eq_left, Prod.mk.injEq] at ran
  obtain ⟨_, ⟨v0, -, v1, -, v2, -, v3, -, v4, -, v5, -, v6, -, v7, -, rfl⟩, rfl, rfl⟩ := ran
  let values : Head -> α
    | .valid => v0
    | .opcode => v1
    | .mode => v2
    | .rd => v3
    | .rs1 => v4
    | .rs2 => v5
    | .hasImm => v6
    | .immBin => v7
  exact ⟨values, rfl, rfl⟩

/-- Batches on which every head's loss agrees get the same result. -/
theorem forward_congr (S : Scalars α) (loss : ParallelInstructionLoss α) {logits logits' : Head -> Tensor α}
    {targets targets' : Head -> Tensor Int}
    (same : ∀ head, headLoss S head (logits' head) (targets' head) ((targets' .valid).map (Int.cast : Int -> α)) =
      headLoss S head (logits head) (targets head) ((targets .valid).map (Int.cast : Int -> α))) :
    loss.forward S logits' targets' = loss.forward S logits targets := by
  simp only [forward, same]

/-- The cross-entropy of a slot reads the slot's target and its logits of the
target's range only. -/
theorem slotLoss_congr (S : Scalars α) {logits logits' : Tensor α} {targets targets' : Tensor Int}
    {classes k : Nat} (target : targets'.data k = targets.data k)
    (scores : ∀ j < classes, logits'.data (k * classes + j) = logits.data (k * classes + j))
    (inRange : 0 ≤ targets.data k ∧ targets.data k < classes) :
    slotLoss S logits' targets' classes k = slotLoss S logits targets classes k := by
  have sums : ∑ j ∈ Finset.range classes, S.exp (logits'.data (k * classes + j)) =
      ∑ j ∈ Finset.range classes, S.exp (logits.data (k * classes + j)) :=
    Finset.sum_congr rfl fun j member => by rw [scores j (Finset.mem_range.mp member)]
  rw [slotLoss, slotLoss, sums, target, scores _ (by omega)]

/-- A head's loss reads each slot's target and logits only where the mask is
not zero, and everywhere for `valid`. -/
theorem headLoss_congr (S : Scalars α) (name : Head) {logits logits' : Tensor α} {targets targets' : Tensor Int}
    {mask mask' : Tensor α} {batch slots classes : Nat} (logitShape : logits.shape = [batch, slots, classes])
    (logitShape' : logits'.shape = [batch, slots, classes]) (targetShape : targets.shape = [batch, slots])
    (targetShape' : targets'.shape = [batch, slots]) (maskShape : mask.shape = [batch, slots])
    (maskShape' : mask'.shape = [batch, slots]) (pos : 0 < classes)
    (inRange : ∀ k < batch * slots, 0 ≤ targets.data k ∧ targets.data k < classes)
    (inRange' : ∀ k < batch * slots, 0 ≤ targets'.data k ∧ targets'.data k < classes)
    (sameMask : ∀ k < batch * slots, mask'.data k = mask.data k)
    (sameSlot : ∀ k < batch * slots, name = .valid ∨ mask.data k ≠ 0 ->
      targets'.data k = targets.data k ∧
        ∀ j < classes, logits'.data (k * classes + j) = logits.data (k * classes + j)) :
    headLoss S name logits' targets' mask' = headLoss S name logits targets mask := by
  have slot : ∀ k < batch * slots, name = .valid ∨ mask.data k ≠ 0 ->
      slotLoss S logits' targets' classes k = slotLoss S logits targets classes k := fun k below read =>
    slotLoss_congr S (sameSlot k below read).1 (sameSlot k below read).2 (inRange k below)
  have maskSum : ∑ k ∈ Finset.range (batch * slots), mask'.data k = ∑ k ∈ Finset.range (batch * slots), mask.data k :=
    Finset.sum_congr rfl fun k member => sameMask k (Finset.mem_range.mp member)
  rw [headLoss_eq S name logitShape' targetShape' maskShape' pos inRange',
    headLoss_eq S name logitShape targetShape maskShape pos inRange]
  split_ifs with masked
  · rw [maskSum]
    congr 2
    refine Finset.sum_congr rfl fun k member => ?_
    have below := Finset.mem_range.mp member
    rw [sameMask k below]
    by_cases zero : mask.data k = 0
    · rw [zero, mul_zero, mul_zero]
    · rw [slot k below (.inr zero)]
  · congr 2
    exact Finset.sum_congr rfl fun k member => slot k (Finset.mem_range.mp member) (.inl (not_not.mp masked))

theorem get_slot {β : Type} {t : Tensor β} {batch slots : Nat} (shape : t.shape = [batch, slots]) (k : Nat) :
    t.get [k / slots, k % slots] = t.data k := by
  simp only [Tensor.get, shape, offset, List.prod_cons, List.prod_nil, mul_one, add_zero, Nat.div_add_mod']

theorem get_slot_class {β : Type} {t : Tensor β} {batch slots classes : Nat} (shape : t.shape = [batch, slots, classes])
    (k j : Nat) : t.get [k / slots, k % slots, j] = t.data (k * classes + j) := by
  simp only [Tensor.get, shape, offset, List.prod_cons, List.prod_nil, mul_one, add_zero]
  congr 1
  conv_rhs => rw [← Nat.div_add_mod' k slots]
  ring

theorem slot_lt {batch slots k : Nat} (below : k < batch * slots) : k / slots < batch ∧ k % slots < slots :=
  ⟨Nat.div_lt_of_lt_mul (by rwa [Nat.mul_comm] at below),
    Nat.mod_lt _ (Nat.pos_of_ne_zero fun zero => by simp [zero] at below)⟩

theorem targets_data {t : Tensor Int} {batch slots classes : Nat} (shape : t.shape = [batch, slots])
    (inRange : ∀ b s, b < batch -> s < slots -> 0 ≤ t.get [b, s] ∧ t.get [b, s] < classes) :
    ∀ k < batch * slots, 0 ≤ t.data k ∧ t.data k < classes := fun k below => by
  simpa [get_slot shape] using inRange _ _ (slot_lt below).1 (slot_lt below).2

/-- Two batches hold the same target and the same logits of `head` at slot
`(b, s)`. -/
def SameAt (logits logits' : Head -> Tensor α) (targets targets' : Head -> Tensor Int) (head : Head)
    (b s : Nat) : Prop :=
  (targets' head).get [b, s] = (targets head).get [b, s] ∧
    ∀ c < head.numClasses, (logits' head).get [b, s, c] = (logits head).get [b, s, c]

omit [LinearOrderedField α] in
/-- Agreement at slot `(k / S, k % S)` read on storage at flat slot `k`. -/
theorem SameAt.data {logits logits' : Head -> Tensor α} {targets targets' : Head -> Tensor Int} {head : Head}
    {batch slots k : Nat} (same : SameAt logits logits' targets targets' head (k / slots) (k % slots))
    (logitShape : (logits head).shape = [batch, slots, head.numClasses])
    (logitShape' : (logits' head).shape = [batch, slots, head.numClasses])
    (targetShape : (targets head).shape = [batch, slots]) (targetShape' : (targets' head).shape = [batch, slots]) :
    (targets' head).data k = (targets head).data k ∧
      ∀ j < head.numClasses, (logits' head).data (k * head.numClasses + j) = (logits head).data (k * head.numClasses + j) :=
  ⟨by simpa [get_slot targetShape, get_slot targetShape'] using same.1,
    fun j below => by simpa [get_slot_class logitShape, get_slot_class logitShape'] using same.2 j below⟩

/-- Batches of `(B, S, C)` logits and `(B, S)` in-range targets for every head
that agree on the `valid` head at every slot and on every other head at the
slots whose `valid` target is `1`: the loss returns the same total and the
same per-head losses for both. -/
theorem forward_ignores_padding (S : Scalars α) (loss : ParallelInstructionLoss α)
    {logits logits' : Head -> Tensor α} {targets targets' : Head -> Tensor Int} {batch slots : Nat}
    (logitShape : ∀ head, (logits head).shape = [batch, slots, head.numClasses])
    (logitShape' : ∀ head, (logits' head).shape = [batch, slots, head.numClasses])
    (targetShape : ∀ head, (targets head).shape = [batch, slots])
    (targetShape' : ∀ head, (targets' head).shape = [batch, slots])
    (inRange : ∀ head b s, b < batch -> s < slots ->
      0 ≤ (targets head).get [b, s] ∧ (targets head).get [b, s] < head.numClasses)
    (inRange' : ∀ head b s, b < batch -> s < slots ->
      0 ≤ (targets' head).get [b, s] ∧ (targets' head).get [b, s] < head.numClasses)
    (validSame : ∀ b s, b < batch -> s < slots -> SameAt logits logits' targets targets' .valid b s)
    (maskedSame : ∀ head, head ≠ .valid -> ∀ b s, b < batch -> s < slots ->
      (targets .valid).get [b, s] = 1 -> SameAt logits logits' targets targets' head b s) :
    ∃ result, loss.forward S logits targets = .ok result ∧ loss.forward S logits' targets' = .ok result := by
  have inData := fun head => targets_data (targetShape head) (inRange head)
  have inData' := fun head => targets_data (targetShape' head) (inRange' head)
  have sameAt : ∀ head, ∀ k < batch * slots,
      head = .valid ∨ ((targets .valid).map (Int.cast : Int -> α)).data k ≠ 0 ->
      SameAt logits logits' targets targets' head (k / slots) (k % slots) := fun head k below read => by
    obtain ⟨hb, hs⟩ := slot_lt below
    by_cases valid : head = .valid
    · subst valid
      exact validSame _ _ hb hs
    · refine maskedSame head valid _ _ hb hs ?_
      have range := inData .valid k below
      have nonzero : (targets .valid).data k ≠ 0 := by simpa [Tensor.map, valid] using read
      simp only [Head.numClasses] at range
      rw [get_slot (targetShape .valid)]
      omega
  have sameData := fun head k below read =>
    (sameAt head k below read).data (logitShape head) (logitShape' head) (targetShape head) (targetShape' head)
  have each : ∀ head, headLoss S head (logits' head) (targets' head) ((targets' .valid).map (Int.cast : Int -> α)) =
      headLoss S head (logits head) (targets head) ((targets .valid).map (Int.cast : Int -> α)) := fun head =>
    headLoss_congr S head (logitShape head) (logitShape' head) (targetShape head) (targetShape' head)
      (targetShape .valid) (targetShape' .valid) (Nat.zero_lt_of_lt (Head.one_lt_numClasses head)) (inData head)
      (inData' head) (fun k below => congrArg Int.cast (sameData .valid k below (.inl rfl)).1) (sameData head)
  have computes : ∀ head, ∃ value,
      headLoss S head (logits head) (targets head) ((targets .valid).map (Int.cast : Int -> α)) = .ok value :=
    fun head => ⟨_, headLoss_eq S head (logitShape head) (targetShape head) (targetShape .valid)
      (Nat.zero_lt_of_lt (Head.one_lt_numClasses head)) (inData head)⟩
  choose values computed using computes
  exact ⟨_, forward_eq S loss values computed, (forward_congr S loss each).trans (forward_eq S loss values computed)⟩

theorem forward_ignores_padding_pair :
    let S : Scalars ℚ := ⟨id, id, id, id, id, id⟩
    let logits : Head -> Tensor ℚ := fun head => ⟨[1, 2, head.numClasses], fun _ => 0⟩
    let logits' : Head -> Tensor ℚ := fun head =>
      if head = .valid then logits head else ⟨[1, 2, head.numClasses], fun k => if k < head.numClasses then 0 else 7⟩
    let targets : Head -> Tensor Int := fun _ => ⟨[1, 2], fun k => if k = 0 then 1 else 0⟩
    let targets' : Head -> Tensor Int := fun head => if head = .valid then targets head else ⟨[1, 2], fun _ => 1⟩
    (logits' .opcode).get [0, 1, 0] ≠ (logits .opcode).get [0, 1, 0] ∧
      (targets' .opcode).get [0, 1] ≠ (targets .opcode).get [0, 1] ∧
      ∃ result, defaults.forward S logits targets = .ok result ∧ defaults.forward S logits' targets' = .ok result := by
  intro S logits logits' targets targets'
  have inRange : ∀ (targets : Head -> Tensor Int), (∀ head, targets head = ⟨[1, 2], fun k => if k = 0 then 1 else 0⟩ ∨
      targets head = ⟨[1, 2], fun _ => 1⟩) -> ∀ head b s, b < 1 -> s < 2 ->
      0 ≤ (targets head).get [b, s] ∧ (targets head).get [b, s] < head.numClasses := by
    intro targets cases head b s hb hs
    have two := Head.one_lt_numClasses head
    obtain rfl : b = 0 := by omega
    rcases cases head with same | same <;> rw [same] <;>
      rcases (by omega : s = 0 ∨ s = 1) with rfl | rfl <;> simp [Tensor.get, offset] <;> omega
  refine ⟨by simp [logits', logits, Tensor.get, offset, Head.numClasses], by decide, forward_ignores_padding S defaults
    (fun _ => rfl) (fun head => by cases head <;> rfl) (fun _ => rfl) (fun head => by cases head <;> rfl)
    (inRange targets fun _ => .inl rfl)
    (inRange targets' fun head => by by_cases valid : head = .valid <;> simp [targets', targets, valid])
    (fun _ _ _ _ => ⟨rfl, fun _ _ => rfl⟩) fun head masked b s hb hs one => ?_⟩
  obtain rfl : b = 0 := by omega
  rcases (by omega : s = 0 ∨ s = 1) with rfl | rfl
  · exact ⟨by simp [targets', targets, masked, Tensor.get, offset],
      fun c below => by simp [logits', logits, masked, Tensor.get, offset, below]⟩
  · exact absurd one (by decide)

end ParallelInstructionLoss

end Model
end Neurlang
