import Neurlang.Model.Loss

namespace Neurlang
namespace Train

/-!
# `train_epoch` and `evaluate`

Both loops run the model and `ParallelInstructionLoss` on every batch of the
loader and add each batch's `losses` dict into a `defaultdict(float)`, which
they divide by the number of batches at the end.  `evaluate` also counts the
slots whose argmax `valid` logit is the `valid` target, and, among the slots
the targets mark valid, those whose argmax `opcode` logit is the `opcode`
target.

The model is any `nn.Module`: its forward pass is a parameter, and so is, for
`train_epoch`, the new state of the model and the optimizer after
`zero_grad`, `backward`, `clip_grad_norm_` and `optimizer.step()`, with or
without the gradient scaler.  Values lie in a field standing for exact real
arithmetic.  The dicts are their entries in insertion order, with one entry
per key.

The loss is linear in the heads' losses, and so are the sums and the
division: the averaged `'total'` stays the weighted sum of the averaged
heads.  The accuracies count, over all batches, the slots the flat storage of
the targets holds, the same slots the loss reads.
-/

open Torch Tensor
open Data (Head)
open Model (ParallelInstructionLoss)

/-! ## Dicts -/

section Dicts

variable {α β : Type}

/-- `d[key] = value`: the entry of `key` is replaced in place, or appended. -/
def setItem : List (String × β) -> String -> β -> List (String × β)
  | [], key, value => [(key, value)]
  | entry :: rest, key, value =>
      if entry.1 = key then (key, value) :: rest else entry :: setItem rest key value

variable [LinearOrderedField α]

/-- `d[key] += value` on a `defaultdict(float)`: a missing key starts at `0.0`. -/
def addItem (d : List (String × α)) (key : String) (value : α) : List (String × α) :=
  setItem d key ((d.lookup key).getD 0 + value)

/-- `for k, v in losses.items(): total_losses[k] += v`. -/
def accumulate (totals losses : List (String × α)) : List (String × α) :=
  losses.foldl (fun d entry => addItem d entry.1 entry.2) totals

/-- `{k: v / num_batches for k, v in total_losses.items()}`. -/
def average (totals : List (String × α)) (numBatches : Nat) : List (String × α) :=
  totals.map fun entry => (entry.1, entry.2 / numBatches)

theorem lookup_cons_eq_ite (key k : String) (value : β) (rest : List (String × β)) :
    ((key, value) :: rest).lookup k = if k = key then some value else rest.lookup k := by
  rw [List.lookup_cons]
  cases found : k == key
  · simp [ne_of_beq_false found]
  · simp [eq_of_beq found]

theorem lookup_setItem (d : List (String × β)) (key k : String) (value : β) :
    (setItem d key value).lookup k = if k = key then some value else d.lookup k := by
  induction d with
  | nil => exact lookup_cons_eq_ite key k value []
  | cons entry rest ih =>
      obtain ⟨k0, v0⟩ := entry
      by_cases same : k0 = key
      · subst same
        by_cases found : k = k0 <;> simp [setItem, found, lookup_cons_eq_ite]
      · by_cases found : k = key
        · subst found
          simp [setItem, same, ih, lookup_cons_eq_ite, Ne.symm same]
        · simp [setItem, same, found, ih, lookup_cons_eq_ite]

theorem getD_lookup_addItem (d : List (String × α)) (key k : String) (value : α) :
    ((addItem d key value).lookup k).getD 0 = (d.lookup k).getD 0 + if k = key then value else 0 := by
  by_cases found : k = key <;> simp [addItem, lookup_setItem, found]

theorem isSome_lookup_addItem (d : List (String × α)) (key k : String) (value : α) :
    ((addItem d key value).lookup k).isSome ↔ (d.lookup k).isSome ∨ k = key := by
  by_cases found : k = key <;> simp [addItem, lookup_setItem, found]

/-- After the loop over a batch's dict, each key holds what it held plus the
batch's value for it. -/
theorem getD_lookup_accumulate (totals losses : List (String × α)) (k : String) :
    ((accumulate totals losses).lookup k).getD 0 =
      (totals.lookup k).getD 0 + (losses.map fun entry => if k = entry.1 then entry.2 else 0).sum := by
  induction losses generalizing totals with
  | nil => simp [accumulate]
  | cons entry rest ih =>
      simp only [accumulate, List.foldl_cons] at ih ⊢
      rw [ih, getD_lookup_addItem, List.map_cons, List.sum_cons, add_assoc]

theorem isSome_lookup_accumulate (totals losses : List (String × α)) (k : String) :
    ((accumulate totals losses).lookup k).isSome ↔ (totals.lookup k).isSome ∨ k ∈ losses.map Prod.fst := by
  induction losses generalizing totals with
  | nil => simp [accumulate]
  | cons entry rest ih =>
      simp only [accumulate, List.foldl_cons] at ih ⊢
      rw [ih, isSome_lookup_addItem, List.map_cons, List.mem_cons]
      tauto

theorem lookup_average (totals : List (String × α)) (numBatches : Nat) (k : String) :
    (average totals numBatches).lookup k = (totals.lookup k).map (· / (numBatches : α)) := by
  induction totals with
  | nil => rfl
  | cons entry rest ih =>
      obtain ⟨k0, v0⟩ := entry
      by_cases found : k = k0 <;> simp_all [average, lookup_cons_eq_ite]

end Dicts

variable {α : Type} [LinearOrderedField α]

/-! ## Predictions -/

/-- The first index of a largest of `f 0, …, f (n - 1)`. -/
def argmaxOf (n : Nat) (f : Nat -> α) : Nat :=
  (List.range n).foldl (fun best i => if f best < f i then i else best) 0

theorem argmaxOf_succ (n : Nat) (f : Nat -> α) :
    argmaxOf (n + 1) f = if f (argmaxOf n f) < f n then n else argmaxOf n f := by
  simp only [argmaxOf, List.range_succ, List.foldl_append, List.foldl_cons, List.foldl_nil]

/-- With at least one value, `argmaxOf` is an index of a largest value, and no
earlier index holds one as large. -/
theorem argmaxOf_spec (f : Nat -> α) {n : Nat} (pos : 0 < n) :
    argmaxOf n f < n ∧ (∀ j < n, f j ≤ f (argmaxOf n f)) ∧ ∀ j < argmaxOf n f, f j < f (argmaxOf n f) := by
  induction n with
  | zero => exact absurd pos (lt_irrefl 0)
  | succ n ih =>
      rw [argmaxOf_succ]
      rcases Nat.eq_zero_or_pos n with rfl | more
      · simp [argmaxOf]
      obtain ⟨below, largest, first⟩ := ih more
      split_ifs with grows
      · refine ⟨Nat.lt_succ_self n, fun j lt => ?_, fun j lt => (largest j lt).trans_lt grows⟩
        rcases Nat.lt_succ_iff_lt_or_eq.mp lt with lt | rfl
        · exact ((largest j lt).trans_lt grows).le
        · exact le_rfl
      · refine ⟨below.trans (Nat.lt_succ_self n), fun j lt => ?_, first⟩
        rcases Nat.lt_succ_iff_lt_or_eq.mp lt with lt | rfl
        · exact largest j lt
        · exact not_lt.mp grows

/-- `label` is the first index of a largest of `f 0, …, f (n - 1)`: the class
`torch.argmax` returns, said without computing it. -/
def FirstLargest (n : Nat) (f : Nat -> α) (label : Int) : Prop :=
  0 ≤ label ∧ label < n ∧ (∀ j < n, f j ≤ f label.toNat) ∧ ∀ j < label.toNat, f j < f label.toNat

instance (n : Nat) (f : Nat -> α) (label : Int) : Decidable (FirstLargest n f label) :=
  inferInstanceAs (Decidable (_ ∧ _ ∧ _ ∧ _))

/-- `argmaxOf` picks a label exactly when the label is the first index of a
largest value: there is one such index. -/
theorem argmaxOf_eq_iff (f : Nat -> α) {n : Nat} (pos : 0 < n) (label : Int) :
    (argmaxOf n f : Int) = label ↔ FirstLargest n f label := by
  obtain ⟨below, largest, first⟩ := argmaxOf_spec f pos
  constructor
  · rintro rfl
    simp only [FirstLargest, Int.toNat_natCast]
    exact ⟨Int.natCast_nonneg _, by exact_mod_cast below, largest, first⟩
  · rintro ⟨nonneg, lt, isLargest, isFirst⟩
    have same : argmaxOf n f = label.toNat := by
      rcases lt_trichotomy (argmaxOf n f) label.toNat with less | same | more
      · exact absurd (isFirst _ less) (not_lt.mpr (largest _ (by omega)))
      · exact same
      · exact absurd (first _ more) (not_lt.mpr (isLargest _ below))
    omega

/-- `torch.argmax(t, dim=-1)`: along the last dimension, the first index of a
largest entry; an empty last dimension raises. -/
def argmax (t : Tensor α) : Except TorchError (Tensor Int) := do
  let n ← t.size (-1)
  if n = 0 then .error .indexError
  else pure (ofFun t.shape.dropLast fun index => (argmaxOf n fun i => t.get (index ++ [i]) : Nat))

/-- `t.sum().item()` of a boolean tensor: its number of `True` entries. -/
def countTrue (t : Tensor Bool) : Nat :=
  (t.map fun b => if b then 1 else 0).sum

/-! ## The two loops -/

/-- A batch of `collate_fn`: the token ids and the eight heads' targets. -/
structure Batch where
  tokens : Tensor Int
  targets : Head -> Tensor Int

section Loops

variable (S : Scalars α) (criterion : ParallelInstructionLoss α)

/-- One pass of the loop of `train_epoch`: the forward pass and the loss on
the batch, then `step` for the update of the model and its optimizer. -/
def trainStep {W : Type} (forward : W -> Tensor Int -> Except TorchError (Head -> Tensor α))
    (step : W -> Batch -> W) (acc : W × List (String × α) × Nat) (batch : Batch) :
    Except TorchError (W × List (String × α) × Nat) := do
  let (model, totalLosses, numBatches) := acc
  let logits ← forward model batch.tokens
  let (_, losses) ← criterion.forward S logits batch.targets
  pure (step model batch, accumulate totalLosses losses, numBatches + 1)

/-- `train_epoch(model, loader, criterion, optimizer, device, scaler)`: the
model after the epoch and the averaged losses. -/
def trainEpoch {W : Type} (forward : W -> Tensor Int -> Except TorchError (Head -> Tensor α))
    (step : W -> Batch -> W) (model : W) (loader : List Batch) :
    Except TorchError (W × List (String × α)) := do
  let (model, totalLosses, numBatches) ← loader.foldlM (trainStep S criterion forward step) (model, [], 0)
  pure (model, average totalLosses numBatches)

/-- The sums `evaluate` keeps over the batches. -/
structure EvalTotals (α : Type) where
  losses : List (String × α)
  correctValid : Nat
  correctOpcode : Nat
  totalValid : Nat
  totalSlots : Nat

/-- One pass of the loop of `evaluate`. -/
def evalStep (forward : Tensor Int -> Except TorchError (Head -> Tensor α)) (acc : EvalTotals α)
    (batch : Batch) : Except TorchError (EvalTotals α) := do
  let logits ← forward batch.tokens
  let (_, losses) ← criterion.forward S logits batch.targets
  let totalLosses := accumulate acc.losses losses
  let validPred ← argmax (logits .valid)
  let opcodePred ← argmax (logits .opcode)
  let correctValid := acc.correctValid + countTrue (← validPred.zipWith (· == ·) (batch.targets .valid))
  let totalSlots := acc.totalSlots + (← batch.tokens.size 0) * (← validPred.size 1)
  let validMask := (batch.targets .valid).map (· == 1)
  if 0 < countTrue validMask then
    let hits ← (← opcodePred.zipWith (· == ·) (batch.targets .opcode)).zipWith (· && ·) validMask
    pure ⟨totalLosses, correctValid, acc.correctOpcode + countTrue hits, acc.totalValid + countTrue validMask,
      totalSlots⟩
  else
    pure ⟨totalLosses, correctValid, acc.correctOpcode, acc.totalValid, totalSlots⟩

/-- `evaluate(model, loader, criterion, device)`: the averaged losses, then
`valid_acc` and `opcode_acc`. -/
def evaluate (forward : Tensor Int -> Except TorchError (Head -> Tensor α)) (loader : List Batch) :
    Except TorchError (List (String × α)) := do
  let totals ← loader.foldlM (evalStep S criterion forward) ⟨[], 0, 0, 0, 0⟩
  let avgLosses := average totals.losses loader.length
  let avgLosses := setItem avgLosses "valid_acc" ((totals.correctValid : α) / (max 1 totals.totalSlots : Nat))
  pure (setItem avgLosses "opcode_acc" ((totals.correctOpcode : α) / (max 1 totals.totalValid : Nat)))

end Loops

/-! ## Runs -/

/-- A property that every step keeps holds after a loop that returns. -/
theorem foldlM_invariant {σ β ε : Type} {step : σ -> β -> Except ε σ} (P : σ -> Prop)
    (keeps : ∀ acc x acc', P acc -> step acc x = .ok acc' -> P acc') :
    ∀ (xs : List β) {init final : σ}, P init -> xs.foldlM step init = .ok final -> P final
  | [], _, _, start, ran => by
      cases ran
      exact start
  | x :: xs, _, _, start, ran => by
      obtain ⟨next, stepped, rest⟩ := Data.bind_eq_ok.mp ran
      exact foldlM_invariant P keeps xs (keeps _ x next start stepped) rest

section Steps

variable {S : Scalars α} {criterion : ParallelInstructionLoss α}

/-- A pass of `train_epoch` that returns adds a dict the loss returned. -/
theorem trainStep_losses {W : Type} {forward : W -> Tensor Int -> Except TorchError (Head -> Tensor α)}
    {step : W -> Batch -> W} {acc acc' : W × List (String × α) × Nat} {batch : Batch}
    (ran : trainStep S criterion forward step acc batch = .ok acc') :
    ∃ logits total losses, criterion.forward S logits batch.targets = .ok (total, losses) ∧
      acc'.2.1 = accumulate acc.2.1 losses := by
  obtain ⟨model, totals, numBatches⟩ := acc
  simp only [trainStep, Data.bind_eq_ok, pure, Except.pure, Except.ok.injEq] at ran
  obtain ⟨logits, -, ⟨total, losses⟩, computed, rfl⟩ := ran
  exact ⟨logits, total, losses, computed, rfl⟩

/-- A pass of `evaluate` that returns adds a dict the loss returned. -/
theorem evalStep_losses {forward : Tensor Int -> Except TorchError (Head -> Tensor α)}
    {acc acc' : EvalTotals α} {batch : Batch} (ran : evalStep S criterion forward acc batch = .ok acc') :
    ∃ logits total losses, criterion.forward S logits batch.targets = .ok (total, losses) ∧
      acc'.losses = accumulate acc.losses losses := by
  simp only [evalStep, Data.bind_eq_ok, pure, Except.pure, Except.ok.injEq] at ran
  obtain ⟨logits, -, ⟨total, losses⟩, computed, _, -, _, -, _, -, _, -, _, -, branch⟩ := ran
  refine ⟨logits, total, losses, computed, ?_⟩
  split_ifs at branch
  · obtain ⟨_, -, _, -, rfl⟩ := by simpa only [Data.bind_eq_ok, Except.ok.injEq] using branch
    rfl
  · cases branch
    rfl

end Steps

/-! ## Batches that fit -/

/-- A batch of `rows` prompts and `slots` slots that the loss and the metrics
accept: token ids with `rows` rows, every head's logits `(rows, slots, C_h)`,
and targets `(rows, slots)` that the loss takes, each in `[0, C_h)` or the
ignore index `-100`. -/
structure Fits (logits : Head -> Tensor α) (batch : Batch) (rows slots : Nat) : Prop where
  tokens : ∃ rest, batch.tokens.shape = rows :: rest
  logits : ∀ head, (logits head).shape = [rows, slots, head.numClasses]
  targets : ∀ head, (batch.targets head).shape = [rows, slots]
  inRange : ∀ head, ∀ k < rows * slots, (batch.targets head).data k = -100 ∨
    (0 ≤ (batch.targets head).data k ∧ (batch.targets head).data k < head.numClasses)

/-- On a batch that fits, the loss returns. -/
theorem forward_fits (S : Scalars α) (criterion : ParallelInstructionLoss α) {logits : Head -> Tensor α}
    {batch : Batch} {rows slots : Nat} (fits : Fits logits batch rows slots) :
    ∃ total losses, criterion.forward S logits batch.targets = .ok (total, losses) := by
  have computes : ∀ head, ∃ value, Model.ParallelInstructionLoss.headLoss S head (logits head) (batch.targets head)
      ((batch.targets .valid).map (Int.cast : Int -> α)) = .ok value := fun head =>
    Model.ParallelInstructionLoss.headLoss_ok S head (fits.logits head) (fits.targets head) (fits.targets .valid)
      (Nat.zero_lt_of_lt (Head.one_lt_numClasses head)) (fits.inRange head)
  choose values computed using computes
  exact ⟨_, _, Model.ParallelInstructionLoss.forward_eq S criterion values computed⟩

/-- `train_epoch` returns when every batch fits the logits the model gives it,
in whatever state the earlier batches left it. -/
theorem trainEpoch_fits (S : Scalars α) (criterion : ParallelInstructionLoss α) {W : Type}
    (forward : W -> Tensor Int -> Except TorchError (Head -> Tensor α)) (step : W -> Batch -> W) (model : W)
    (loader : List Batch)
    (fits : ∀ w, ∀ batch ∈ loader, ∃ logits rows slots, forward w batch.tokens = .ok logits ∧
      Fits logits batch rows slots) :
    ∃ final losses, trainEpoch S criterion forward step model loader = .ok (final, losses) := by
  have run : ∀ acc, ∃ final, loader.foldlM (trainStep S criterion forward step) acc = .ok final := by
    induction loader with
    | nil => exact fun acc => ⟨acc, rfl⟩
    | cons batch rest ih =>
        intro acc
        obtain ⟨logits, rows, slots, computed, fit⟩ := fits acc.1 batch (List.mem_cons_self _ _)
        obtain ⟨total, losses, lossOk⟩ := forward_fits S criterion fit
        obtain ⟨final, ran⟩ := ih (fun w b member => fits w b (List.mem_cons_of_mem _ member)) _
        exact ⟨final, by rw [List.foldlM_cons, trainStep, computed, Data.ok_bind, lossOk, Data.ok_bind]; exact ran⟩
  obtain ⟨⟨final, totals, numBatches⟩, ran⟩ := run (model, [], 0)
  exact ⟨final, _, by rw [trainEpoch, ran, Data.ok_bind]; rfl⟩

/-! ## Accuracies -/

/-- The slots of a batch: the elements of its `valid` targets, `B * S` of them. -/
def slotCount (batch : Batch) : Nat := (batch.targets .valid).numel

/-- The head's prediction at flat slot `k`: the first index of a largest of
its logits there. -/
def predicted (logits : Head -> Tensor α) (head : Head) (k : Nat) : Int :=
  argmaxOf head.numClasses fun j => (logits head).data (k * head.numClasses + j)

/-- The logits of flat slot `k` of a head `(B, S, C)`. -/
def slotLogits (logits : Head -> Tensor α) (head : Head) (k : Nat) : Nat -> α :=
  fun j => (logits head).data (k * head.numClasses + j)

/-- The slots whose `valid` target is the first index of a largest of their
`valid` logits. -/
def validHits (logits : Head -> Tensor α) (batch : Batch) : Nat :=
  ((Finset.range (slotCount batch)).filter fun k =>
    FirstLargest Head.valid.numClasses (slotLogits logits .valid k) ((batch.targets .valid).data k)).card

/-- The slots whose `valid` target is `1`. -/
def validSlots (batch : Batch) : Nat :=
  ((Finset.range (slotCount batch)).filter fun k => (batch.targets .valid).data k = 1).card

/-- The slots whose `valid` target is `1` and whose `opcode` target is the
first index of a largest of their `opcode` logits. -/
def opcodeHits (logits : Head -> Tensor α) (batch : Batch) : Nat :=
  ((Finset.range (slotCount batch)).filter fun k =>
    (batch.targets .valid).data k = 1 ∧
      FirstLargest Head.opcode.numClasses (slotLogits logits .opcode k) ((batch.targets .opcode).data k)).card

theorem argmax_slots {t : Tensor α} {rows slots n : Nat} (shape : t.shape = [rows, slots, n]) (pos : 0 < n) :
    ∃ pred, argmax t = .ok pred ∧ pred.shape = [rows, slots] ∧
      ∀ k < rows * slots, pred.data k = argmaxOf n fun j => t.data (k * n + j) := by
  refine ⟨ofFun [rows, slots] fun index => ((argmaxOf n fun i => t.get (index ++ [i]) : Nat) : Int), ?_, rfl,
    fun k _ => ?_⟩
  · rw [argmax, size_neg_one (show t.shape = [rows, slots] ++ [n] from shape), Data.ok_bind,
      if_neg (Nat.pos_iff_ne_zero.mp pos), shape]
    rfl
  · show ((argmaxOf n fun i => t.get (unravel [rows, slots] k ++ [i]) : Nat) : Int) = _
    simp only [unravel, List.prod_cons, List.prod_nil, mul_one, Nat.div_one, List.cons_append, List.nil_append,
      Model.ParallelInstructionLoss.get_slot_class shape]

theorem countTrue_eq_card (t : Tensor Bool) :
    countTrue t = ((Finset.range t.numel).filter fun k => t.data k = true).card := by
  rw [Finset.card_filter]
  rfl

theorem countTrue_of_data {t : Tensor Bool} {n : Nat} (size : t.numel = n) {p : Nat -> Prop} [DecidablePred p]
    (data : ∀ k < n, t.data k = true ↔ p k) : countTrue t = ((Finset.range n).filter p).card := by
  rw [countTrue_eq_card, size]
  exact congrArg Finset.card (Finset.filter_congr fun k member => data k (Finset.mem_range.mp member))

theorem validHits_le (logits : Head -> Tensor α) (batch : Batch) : validHits logits batch ≤ slotCount batch :=
  (Finset.card_filter_le _ _).trans (Finset.card_range _).le

theorem opcodeHits_le (logits : Head -> Tensor α) (batch : Batch) : opcodeHits logits batch ≤ validSlots batch :=
  Finset.card_le_card (Finset.monotone_filter_right _ fun _ both => both.1)

/-- A pass of `evaluate` over a batch that fits returns, and adds the batch's
counts. -/
theorem evalStep_fits (S : Scalars α) (criterion : ParallelInstructionLoss α)
    {forward : Tensor Int -> Except TorchError (Head -> Tensor α)} (acc : EvalTotals α) {batch : Batch}
    {logits : Head -> Tensor α} {rows slots : Nat} (computed : forward batch.tokens = .ok logits)
    (fits : Fits logits batch rows slots) :
    ∃ losses, evalStep S criterion forward acc batch = .ok ⟨accumulate acc.losses losses,
      acc.correctValid + validHits logits batch, acc.correctOpcode + opcodeHits logits batch,
      acc.totalValid + validSlots batch, acc.totalSlots + slotCount batch⟩ := by
  obtain ⟨total, losses, lossOk⟩ := forward_fits S criterion fits
  obtain ⟨rest, tokenShape⟩ := fits.tokens
  have slots_eq : slotCount batch = rows * slots := by simp [slotCount, numel, fits.targets .valid]
  obtain ⟨validPred, validOk, validShape, validData⟩ := argmax_slots (fits.logits .valid) (by decide)
  obtain ⟨opcodePred, opcodeOk, opcodeShape, opcodeData⟩ := argmax_slots (fits.logits .opcode) (by decide)
  obtain ⟨validEq, validEqOk, validEqShape, validEqData⟩ :=
    zipWith_same_data (· == ·) (validShape.trans (fits.targets .valid).symm)
  have validCount : countTrue validEq = validHits logits batch := by
    rw [validHits, slots_eq]
    refine countTrue_of_data (by simp [numel, validEqShape, validShape]) fun k below => ?_
    rw [validEqData k (by simpa [numel, validShape] using below), validData k below, beq_iff_eq]
    exact argmaxOf_eq_iff _ (by decide) _
  have maskCount : countTrue ((batch.targets .valid).map (· == 1)) = validSlots batch := by
    rw [validSlots, slots_eq]
    exact countTrue_of_data (by simp [numel, fits.targets .valid]) fun k _ => beq_iff_eq
  refine ⟨losses, ?_⟩
  by_cases any : 0 < validSlots batch
  · obtain ⟨opcodeEq, opcodeEqOk, opcodeEqShape, opcodeEqData⟩ :=
      zipWith_same_data (· == ·) (opcodeShape.trans (fits.targets .opcode).symm)
    obtain ⟨hits, hitsOk, hitsShape, hitsData⟩ := zipWith_same_data (· && ·)
      (show opcodeEq.shape = ((batch.targets .valid).map (· == 1)).shape by
        rw [opcodeEqShape, opcodeShape, shape_map, fits.targets .valid])
    have hitCount : countTrue hits = opcodeHits logits batch := by
      rw [opcodeHits, slots_eq]
      refine countTrue_of_data (by simp [numel, hitsShape, opcodeEqShape, opcodeShape]) fun k below => ?_
      have inside : k < opcodeEq.numel := by simpa [numel, opcodeEqShape, opcodeShape] using below
      rw [hitsData k inside, opcodeEqData k (by simpa [numel, opcodeShape] using below), opcodeData k below]
      simp only [Tensor.map, Bool.and_eq_true, beq_iff_eq]
      exact and_comm.trans (and_congr_right fun _ => argmaxOf_eq_iff _ (by decide) _)
    simp only [evalStep, computed, lossOk, validOk, opcodeOk, validEqOk, size_zero tokenShape,
      size_one validShape, Data.ok_bind, maskCount, any, ↓reduceIte, opcodeEqOk, hitsOk, validCount, hitCount,
      slots_eq]
    rfl
  · have noValid : validSlots batch = 0 := by omega
    have noHits : opcodeHits logits batch = 0 := Nat.eq_zero_of_le_zero (noValid ▸ opcodeHits_le logits batch)
    simp only [evalStep, computed, lossOk, validOk, opcodeOk, validEqOk, size_zero tokenShape,
      size_one validShape, Data.ok_bind, maskCount, any, ↓reduceIte, validCount, noHits, noValid, slots_eq, add_zero]
    rfl

/-- The loop of `evaluate` over batches that fit returns the sums of their
counts. -/
theorem foldlM_evalStep_fits (S : Scalars α) (criterion : ParallelInstructionLoss α)
    (forward : Tensor Int -> Except TorchError (Head -> Tensor α)) (logits : Batch -> Head -> Tensor α)
    (loader : List Batch) (acc : EvalTotals α)
    (computed : ∀ batch ∈ loader, forward batch.tokens = .ok (logits batch))
    (fits : ∀ batch ∈ loader, ∃ rows slots, Fits (logits batch) batch rows slots) :
    ∃ losses, loader.foldlM (evalStep S criterion forward) acc = .ok ⟨losses,
      acc.correctValid + (loader.map fun batch => validHits (logits batch) batch).sum,
      acc.correctOpcode + (loader.map fun batch => opcodeHits (logits batch) batch).sum,
      acc.totalValid + (loader.map validSlots).sum, acc.totalSlots + (loader.map slotCount).sum⟩ := by
  induction loader generalizing acc with
  | nil => exact ⟨acc.losses, by simp; rfl⟩
  | cons batch rest ih =>
      obtain ⟨rows, slots, fit⟩ := fits batch (List.mem_cons_self _ _)
      obtain ⟨losses, stepped⟩ := evalStep_fits S criterion acc (computed batch (List.mem_cons_self _ _)) fit
      obtain ⟨final, run⟩ := ih _ (fun b member => computed b (List.mem_cons_of_mem _ member))
        (fun b member => fits b (List.mem_cons_of_mem _ member))
      refine ⟨final, ?_⟩
      rw [List.foldlM_cons, stepped, Data.ok_bind, run]
      simp only [List.map_cons, List.sum_cons, add_assoc]

theorem div_max_one_mem_unit {a b : Nat} (le : a ≤ b) :
    0 ≤ (a : α) / ((max 1 b : Nat) : α) ∧ (a : α) / ((max 1 b : Nat) : α) ≤ 1 := by
  have pos : (0 : α) < ((max 1 b : Nat) : α) := Nat.cast_pos.mpr (lt_max_of_lt_left Nat.one_pos)
  exact ⟨div_nonneg (Nat.cast_nonneg a) pos.le,
    (div_le_one pos).mpr (Nat.cast_le.mpr (le.trans (le_max_right 1 b)))⟩

/-- For every loader whose batches fit, targets in range included, `evaluate`
returns two accuracies, both in `[0, 1]`: `valid_acc`, the slots whose `valid`
target is the first index of a largest `valid` logit over `max(1, ∑ B * S)`,
and `opcode_acc`, the slots whose `valid` target is `1` and whose `opcode`
target is the first index of a largest `opcode` logit over `max(1, number of
slots whose valid target is 1)`. -/
theorem evaluate_accuracies (S : Scalars α) (criterion : ParallelInstructionLoss α)
    (forward : Tensor Int -> Except TorchError (Head -> Tensor α)) (loader : List Batch)
    (logits : Batch -> Head -> Tensor α) (computed : ∀ batch ∈ loader, forward batch.tokens = .ok (logits batch))
    (fits : ∀ batch ∈ loader, ∃ rows slots, Fits (logits batch) batch rows slots) :
    let validAcc : α := ((loader.map fun batch => validHits (logits batch) batch).sum : Nat) /
      ((max 1 (loader.map slotCount).sum : Nat) : α)
    let opcodeAcc : α := ((loader.map fun batch => opcodeHits (logits batch) batch).sum : Nat) /
      ((max 1 (loader.map validSlots).sum : Nat) : α)
    ∃ metrics, evaluate S criterion forward loader = .ok metrics ∧
      metrics.lookup "valid_acc" = some validAcc ∧ metrics.lookup "opcode_acc" = some opcodeAcc ∧
      0 ≤ validAcc ∧ validAcc ≤ 1 ∧ 0 ≤ opcodeAcc ∧ opcodeAcc ≤ 1 := by
  intro validAcc opcodeAcc
  obtain ⟨losses, run⟩ := foldlM_evalStep_fits S criterion forward logits loader ⟨[], 0, 0, 0, 0⟩ computed fits
  simp only [zero_add] at run
  refine ⟨_, by rw [evaluate, run, Data.ok_bind]; rfl, ?_, ?_, ?_⟩
  · rw [lookup_setItem, if_neg (by decide), lookup_setItem, if_pos rfl]
  · rw [lookup_setItem, if_pos rfl]
  · obtain ⟨validLow, validHigh⟩ : 0 ≤ validAcc ∧ validAcc ≤ 1 :=
      div_max_one_mem_unit (List.sum_le_sum fun batch _ => validHits_le (logits batch) batch)
    exact ⟨validLow, validHigh, div_max_one_mem_unit (List.sum_le_sum fun batch _ => opcodeHits_le (logits batch) batch)⟩

theorem evaluate_accuracies_one_slot :
    let S : Scalars ℚ := ⟨id, id, id, id, id, id⟩
    let batch : Batch := ⟨⟨[1, 1], fun _ => 0⟩, fun _ => ⟨[1, 1], fun _ => 0⟩⟩
    let logits : Head -> Tensor ℚ := fun head => ⟨[1, 1, head.numClasses], fun _ => 0⟩
    (∀ b ∈ [batch], (fun _ => .ok logits : Tensor Int -> Except TorchError (Head -> Tensor ℚ)) b.tokens =
        .ok logits) ∧
      (∀ b ∈ [batch], ∃ rows slots, Fits logits b rows slots) ∧
      ∃ metrics, evaluate S ParallelInstructionLoss.defaults (fun _ => .ok logits) [batch] = .ok metrics ∧
        metrics.lookup "valid_acc" = some 1 ∧ metrics.lookup "opcode_acc" = some 0 := by
  intro S batch logits
  have computed : ∀ b ∈ [batch], (fun _ => .ok logits : Tensor Int -> Except TorchError (Head -> Tensor ℚ)) b.tokens =
      .ok logits := fun _ _ => rfl
  have fits : ∀ b ∈ [batch], ∃ rows slots, Fits logits b rows slots := by
    simp only [List.mem_singleton, forall_eq]
    exact ⟨1, 1, ⟨⟨[1], rfl⟩, fun _ => rfl, fun _ => rfl, fun head k _ =>
      .inr ⟨le_refl 0, Int.natCast_pos.mpr (Nat.zero_lt_of_lt (Head.one_lt_numClasses head))⟩⟩⟩
  obtain ⟨metrics, ran, valid, opcode, -⟩ :=
    evaluate_accuracies S ParallelInstructionLoss.defaults (fun _ => .ok logits) [batch] (fun _ => logits) computed fits
  refine ⟨computed, fits, metrics, ran, valid.trans ?_, opcode.trans ?_⟩
  · simp [validHits, slotCount, slotLogits, FirstLargest, Head.numClasses, numel, batch, logits]
  · simp [opcodeHits, validSlots, slotCount, numel, batch]

/-- A batch whose one slot has the `valid` target 2, the label `__getitem__`
stores for a record with `valid` 2: the loss raises `IndexError`, and so does
`evaluate`. -/
theorem evaluate_raises_out_of_range :
    evaluate (⟨id, id, id, id, id, id⟩ : Scalars ℚ) ParallelInstructionLoss.defaults
      (fun _ => .ok fun head => ⟨[1, 1, head.numClasses], fun _ => 0⟩)
      [⟨⟨[1, 1], fun _ => 0⟩, fun head => ⟨[1, 1], fun _ => if head = .valid then 2 else 0⟩⟩] =
      .error .indexError := by
  rfl

/-! ## The weighted total -/

/-- The keys of a loss dict: `'total'` and the eight heads'. -/
def lossKeys : List String := "total" :: Head.all.map Head.key

section Total

variable (criterion : ParallelInstructionLoss α)

/-- `'total'` is the weighted sum of the heads' entries, a missing entry read
as `0.0`. -/
def WeightedTotal (d : List (String × α)) : Prop :=
  (d.lookup "total").getD 0 = (Head.all.map fun head => criterion.weight head * (d.lookup head.key).getD 0).sum

/-- A dict with an entry for every key of a loss dict, whose `'total'` is the
weighted sum of the heads' entries. -/
structure LossDict (d : List (String × α)) : Prop where
  weighted : WeightedTotal criterion d
  keys : ∀ key ∈ lossKeys, (d.lookup key).isSome

theorem weightedTotal_nil : WeightedTotal criterion [] := by
  simp [WeightedTotal, Head.all]

variable {criterion}

/-- Adding one batch's dict of head losses and their weighted sum keeps the
total weighted, and every key then has an entry. -/
theorem LossDict.accumulate {d : List (String × α)} {values : Head -> α} {total : α}
    (weighted : WeightedTotal criterion d)
    (summed : total = Head.all.foldl (fun total name => total + criterion.weight name * values name) 0) :
    LossDict criterion (accumulate d (Head.all.map (fun name => (name.key, values name)) ++ [("total", total)])) := by
  constructor
  · simp only [WeightedTotal, getD_lookup_accumulate] at weighted ⊢
    rw [weighted, summed]
    simp only [Head.all, Head.key, List.map_cons, List.map_nil, List.cons_append, List.nil_append,
      List.sum_cons, List.sum_nil, List.foldl_cons, List.foldl_nil, String.reduceEq, ↓reduceIte, add_zero,
      zero_add]
    ring
  · intro key member
    rw [isSome_lookup_accumulate]
    right
    simp only [lossKeys, List.mem_cons] at member
    simp only [List.map_append, List.map_map, List.map_cons, List.map_nil, List.mem_append, List.mem_singleton]
    tauto

theorem LossDict.average {d : List (String × α)} (dict : LossDict criterion d) (numBatches : Nat) :
    LossDict criterion (average d numBatches) := by
  have getD_average : ∀ k, ((Train.average d numBatches).lookup k).getD 0 = (d.lookup k).getD 0 / numBatches := by
    intro k
    rw [lookup_average]
    cases d.lookup k <;> simp
  constructor
  · have weighted := dict.weighted
    simp only [WeightedTotal, getD_average] at weighted ⊢
    simp only [weighted, div_eq_mul_inv, ← mul_assoc, List.sum_map_mul_right]
  · intro key member
    simpa [lookup_average] using dict.keys key member

theorem LossDict.setItem {d : List (String × α)} (dict : LossDict criterion d) {key : String}
    (fresh : key ∉ lossKeys) (value : α) : LossDict criterion (setItem d key value) := by
  have same : ∀ k ∈ lossKeys, (Train.setItem d key value).lookup k = d.lookup k := fun k member => by
    rw [lookup_setItem, if_neg (by rintro rfl; exact fresh member)]
  constructor
  · have weighted := dict.weighted
    simp only [WeightedTotal] at weighted ⊢
    rw [same "total" (by simp [lossKeys]), weighted]
    congr 1
    exact List.map_congr_left fun head member => by
      rw [same head.key (List.mem_cons_of_mem _ (List.mem_map_of_mem _ member))]
  · intro k member
    rw [same k member]
    exact dict.keys k member

/-- The dict's entries for the heads and `'total'`, read back. -/
theorem LossDict.lookup_total {d : List (String × α)} (dict : LossDict criterion d) :
    (∀ head : Head, ∃ value, d.lookup head.key = some value) ∧
      d.lookup "total" = some (Head.all.map fun head => criterion.weight head * (d.lookup head.key).getD 0).sum := by
  refine ⟨fun head => Option.isSome_iff_exists.mp
    (dict.keys _ (List.mem_cons_of_mem _ (List.mem_map_of_mem _ (Head.mem_all head)))), ?_⟩
  obtain ⟨total, found⟩ := Option.isSome_iff_exists.mp (dict.keys "total" (by simp [lossKeys]))
  have weighted := dict.weighted
  rw [WeightedTotal, found, Option.getD_some] at weighted
  rw [found, weighted]

end Total

section TotalRuns

variable {S : Scalars α} {criterion : ParallelInstructionLoss α}

theorem trainStep_lossDict {W : Type} {forward : W -> Tensor Int -> Except TorchError (Head -> Tensor α)}
    {step : W -> Batch -> W} {acc acc' : W × List (String × α) × Nat} {batch : Batch}
    (weighted : WeightedTotal criterion acc.2.1) (ran : trainStep S criterion forward step acc batch = .ok acc') :
    LossDict criterion acc'.2.1 := by
  obtain ⟨logits, total, losses, computed, added⟩ := trainStep_losses ran
  obtain ⟨values, summed, rfl⟩ := Model.ParallelInstructionLoss.forward_ok S criterion computed
  rw [added]
  exact LossDict.accumulate weighted summed

theorem evalStep_lossDict {forward : Tensor Int -> Except TorchError (Head -> Tensor α)}
    {acc acc' : EvalTotals α} {batch : Batch}
    (weighted : WeightedTotal criterion acc.losses) (ran : evalStep S criterion forward acc batch = .ok acc') :
    LossDict criterion acc'.losses := by
  obtain ⟨logits, total, losses, computed, added⟩ := evalStep_losses ran
  obtain ⟨values, summed, rfl⟩ := Model.ParallelInstructionLoss.forward_ok S criterion computed
  rw [added]
  exact LossDict.accumulate weighted summed

/-- A loop over a non-empty loader whose passes each add a loss dict ends with
a loss dict. -/
theorem foldlM_lossDict {σ : Type} {step : σ -> Batch -> Except TorchError σ} (losses : σ -> List (String × α))
    (keeps : ∀ acc batch acc', WeightedTotal criterion (losses acc) -> step acc batch = .ok acc' ->
      LossDict criterion (losses acc'))
    {loader : List Batch} (nonempty : loader ≠ []) {init final : σ} (start : WeightedTotal criterion (losses init))
    (ran : loader.foldlM step init = .ok final) : LossDict criterion (losses final) := by
  obtain ⟨batch, rest, rfl⟩ := List.exists_cons_of_ne_nil nonempty
  obtain ⟨next, stepped, run⟩ := Data.bind_eq_ok.mp ran
  exact foldlM_invariant (fun acc => LossDict criterion (losses acc))
    (fun acc batch acc' dict stepped => keeps acc batch acc' dict.weighted stepped) rest
    (keeps _ _ _ start stepped) run

end TotalRuns

/-- The dict of a run of `train_epoch` over a non-empty loader is a loss
dict. -/
theorem trainEpoch_lossDict (S : Scalars α) (criterion : ParallelInstructionLoss α) {W : Type}
    {forward : W -> Tensor Int -> Except TorchError (Head -> Tensor α)} {step : W -> Batch -> W}
    {model final : W} {loader : List Batch} {losses : List (String × α)} (nonempty : loader ≠ [])
    (ran : trainEpoch S criterion forward step model loader = .ok (final, losses)) : LossDict criterion losses := by
  obtain ⟨⟨model', totals, numBatches⟩, run, done⟩ := Data.bind_eq_ok.mp ran
  simp only [pure, Except.pure, Except.ok.injEq, Prod.mk.injEq] at done
  obtain ⟨-, rfl⟩ := done
  exact (foldlM_lossDict (fun acc => acc.2.1) (fun _ _ _ weighted stepped => trainStep_lossDict weighted stepped)
    nonempty (weightedTotal_nil criterion) run).average numBatches

/-- The dict of a run of `evaluate` over a non-empty loader is a loss dict,
with the two accuracies beside. -/
theorem evaluate_lossDict (S : Scalars α) (criterion : ParallelInstructionLoss α)
    {forward : Tensor Int -> Except TorchError (Head -> Tensor α)} {loader : List Batch}
    {metrics : List (String × α)} (nonempty : loader ≠ [])
    (ran : evaluate S criterion forward loader = .ok metrics) : LossDict criterion metrics := by
  obtain ⟨totals, run, done⟩ := Data.bind_eq_ok.mp ran
  simp only [pure, Except.pure, Except.ok.injEq] at done
  subst done
  have dict := foldlM_lossDict EvalTotals.losses (fun _ _ _ weighted stepped => evalStep_lossDict weighted stepped)
    nonempty (weightedTotal_nil criterion) run
  exact ((dict.average _).setItem (by decide) _).setItem (by decide) _

/-- The dict has an entry for each head, and its `'total'` is the heads'
entries weighted as `ParallelInstructionLoss()` weighs them by default:
`valid` 1, `opcode` 2, `mode`, `rd`, `rs1` and `rs2` 1, `has_imm` and
`imm_bin` 0.5. -/
def DefaultWeighted (d : List (String × α)) : Prop :=
  ∃ valid opcode mode rd rs1 rs2 hasImm immBin : α,
    d.lookup "valid" = some valid ∧ d.lookup "opcode" = some opcode ∧ d.lookup "mode" = some mode ∧
    d.lookup "rd" = some rd ∧ d.lookup "rs1" = some rs1 ∧ d.lookup "rs2" = some rs2 ∧
    d.lookup "has_imm" = some hasImm ∧ d.lookup "imm_bin" = some immBin ∧
    d.lookup "total" = some (valid + 2 * opcode + mode + rd + rs1 + rs2 + hasImm / 2 + immBin / 2)

theorem LossDict.defaultWeighted {d : List (String × α)} (dict : LossDict ParallelInstructionLoss.defaults d) :
    DefaultWeighted d := by
  obtain ⟨entries, total⟩ := dict.lookup_total
  choose value found using entries
  refine ⟨value .valid, value .opcode, value .mode, value .rd, value .rs1, value .rs2, value .hasImm,
    value .immBin, found .valid, found .opcode, found .mode, found .rd, found .rs1, found .rs2, found .hasImm,
    found .immBin, ?_⟩
  rw [total]
  simp only [Head.all, List.map_cons, List.map_nil, found, Option.getD_some, List.sum_cons, List.sum_nil,
    ParallelInstructionLoss.weight, ParallelInstructionLoss.defaults, Option.some.injEq]
  ring

/-- For every non-empty loader, the `'total'` entry of the dict `train_epoch`
returns, and likewise of the dict `evaluate` returns, is the sum of the heads'
entries under the loss's default weights 1, 2, 1, 1, 1, 1, 0.5, 0.5. -/
theorem total_is_weighted_sum (S : Scalars α) :
    (∀ (W : Type) (forward : W -> Tensor Int -> Except TorchError (Head -> Tensor α)) (step : W -> Batch -> W)
        (model final : W) (loader : List Batch) (losses : List (String × α)), loader ≠ [] ->
      trainEpoch S ParallelInstructionLoss.defaults forward step model loader = .ok (final, losses) ->
      DefaultWeighted losses) ∧
    (∀ (forward : Tensor Int -> Except TorchError (Head -> Tensor α)) (loader : List Batch)
        (metrics : List (String × α)), loader ≠ [] ->
      evaluate S ParallelInstructionLoss.defaults forward loader = .ok metrics -> DefaultWeighted metrics) :=
  ⟨fun _ _ _ _ _ _ _ nonempty ran => (trainEpoch_lossDict S _ nonempty ran).defaultWeighted,
    fun _ _ _ nonempty ran => (evaluate_lossDict S _ nonempty ran).defaultWeighted⟩

theorem total_is_weighted_sum_one_slot :
    let S : Scalars ℚ := ⟨id, id, id, id, id, id⟩
    let batch : Batch := ⟨⟨[1, 1], fun _ => 0⟩, fun _ => ⟨[1, 1], fun _ => 0⟩⟩
    let logits : Head -> Tensor ℚ := fun head => ⟨[1, 1, head.numClasses], fun _ => 0⟩
    ∃ final losses metrics, [batch] ≠ [] ∧
      trainEpoch S ParallelInstructionLoss.defaults (fun (_ : Unit) _ => .ok logits) (fun _ _ => ()) () [batch] =
        .ok (final, losses) ∧
      evaluate S ParallelInstructionLoss.defaults (fun _ => .ok logits) [batch] = .ok metrics ∧
      DefaultWeighted losses ∧ DefaultWeighted metrics := by
  intro S batch logits
  have fit : Fits logits batch 1 1 :=
    ⟨⟨[1], rfl⟩, fun _ => rfl, fun _ => rfl, fun head _ _ =>
      .inr ⟨le_refl 0, Int.natCast_pos.mpr (Nat.zero_lt_of_lt (Head.one_lt_numClasses head))⟩⟩
  have fits : ∀ b ∈ [batch], ∃ rows slots, Fits logits b rows slots := by
    simp only [List.mem_singleton, forall_eq]
    exact ⟨1, 1, fit⟩
  have nonempty : [batch] ≠ [] := List.cons_ne_nil _ _
  obtain ⟨final, losses, trained⟩ := trainEpoch_fits S ParallelInstructionLoss.defaults
    (fun (_ : Unit) _ => .ok logits) (fun _ _ => ()) () [batch] fun _ b member => by
      obtain ⟨rows, slots, fitting⟩ := fits b member
      exact ⟨logits, rows, slots, rfl, fitting⟩
  obtain ⟨totals, run⟩ := foldlM_evalStep_fits S ParallelInstructionLoss.defaults (fun _ => .ok logits)
    (fun _ => logits) [batch] ⟨[], 0, 0, 0, 0⟩ (fun _ _ => rfl) fits
  obtain ⟨metrics, evaluated⟩ :
      ∃ metrics, evaluate S ParallelInstructionLoss.defaults (fun _ => .ok logits) [batch] = .ok metrics :=
    ⟨_, by rw [evaluate, run, Data.ok_bind]; rfl⟩
  exact ⟨final, losses, metrics, nonempty, trained, evaluated,
    (total_is_weighted_sum S).1 _ _ _ _ _ _ _ nonempty trained,
    (total_is_weighted_sum S).2 _ _ _ nonempty evaluated⟩

end Train
end Neurlang
