import Neurlang.Model.Shapes
import Neurlang.Model.Tokenize
import Neurlang.Train.Evaluate

namespace Neurlang

/-!
# The loaders of `main`: `BatchSampler`, `collate_fn` and one epoch

`main` splits the dataset with `random_split` and wraps both parts in a
`DataLoader(batch_size, shuffle, collate_fn=collate_fn)`.  The sampler of a
loader yields positions of its part of the dataset, each once, shuffled for the
training part and in order for the validation part.  A `BatchSampler` with
`drop_last=False` cuts them into runs of `batch_size`, the last one shorter;
for each run the loader calls `__getitem__` on every position and `collate_fn`
on the items, which `torch.stack`s every tensor field and keeps the categories
as a list.

The loaders here take the samples that the sampler's positions select, in the
order it yields them: every split and every shuffle of the dataset is such a
list.  A loader is read to the end before the epoch here, where PyTorch fetches
each batch when the loop asks for it; the two raise on the same inputs, and the
theorems are about runs where neither raises.

The batches of a loader over typed samples hold every sample once, in order,
row `i` of a batch being the item `__getitem__` makes of the `i`-th sample of
its run.  On samples whose texts encode to UTF-8 and whose fields the clamps
bring into range, both loops of an epoch of `main` run to the end:
`train_epoch` over the training loader, whatever the optimizer does to the
parameters and whatever dropout draws, then `evaluate` over the validation
loader with the trained model.  The reads of their dicts that follow raise
`KeyError` when either part is empty.  The checkpoint that the body may then
write to disk is not modelled.
-/

namespace Torch.Tensor

variable {α : Type}

/-- `torch.tensor(values, dtype=torch.long)` of a list: one dimension. -/
def ofList [Zero α] (values : List α) : Tensor α :=
  ⟨[values.length], fun k => values.getD k 0⟩

/-- `torch.stack(tensors)`: the tensors, all of one shape, along a new first
dimension. -/
def stack (tensors : List (Tensor α)) : Except TorchError (Tensor α) :=
  match tensors with
  | [] => .error .runtimeError
  | first :: _ =>
      if tensors.all (·.shape == first.shape) then
        .ok ⟨tensors.length :: first.shape,
          fun k => (tensors.getD (k / first.numel) first).data (k % first.numel)⟩
      else .error .runtimeError

/-- Stacking lists of one length `n`: element `j` of row `i` is element `j` of
the `i`-th list. -/
theorem stack_ofList [Zero α] {rows : List (List α)} {n : Nat} (nonempty : rows ≠ [])
    (lengths : ∀ row ∈ rows, row.length = n) :
    ∃ t, stack (rows.map ofList) = .ok t ∧ t.shape = [rows.length, n] ∧
      ∀ i (lt : i < rows.length), ∀ j < n, t.data (i * n + j) = rows[i].getD j 0 := by
  obtain ⟨first, rest, rfl⟩ := List.exists_cons_of_ne_nil nonempty
  have firstLength := lengths first (List.mem_cons_self _ _)
  have same : ((first :: rest).map ofList).all (·.shape == (ofList first).shape) = true := by
    simp only [List.all_eq_true, List.mem_map, beq_iff_eq]
    rintro _ ⟨row, member, rfl⟩
    simp [ofList, lengths row member, firstLength]
  have size : (ofList first).numel = n := by simp [numel, ofList, firstLength]
  refine ⟨_, by rw [List.map_cons, stack, ← List.map_cons, if_pos same], by simp [ofList, firstLength], ?_⟩
  intro i lt j below
  have row : (i * n + j) / n = i := Nat.div_eq_of_lt_le (by omega) (by rw [Nat.succ_mul]; omega)
  simp only [size, row, Nat.mul_add_mod_of_lt below]
  rw [List.getD_eq_getElem _ _ (by simpa using lt), List.getElem_map]
  rfl

/-- Every element inside such a stack is an element of one of the lists. -/
theorem mem_of_stacked [Zero α] {rows : List (List α)} {n : Nat} {t : Tensor α}
    (lengths : ∀ row ∈ rows, row.length = n)
    (data : ∀ i (lt : i < rows.length), ∀ j < n, t.data (i * n + j) = rows[i].getD j 0) :
    ∀ k < rows.length * n, ∃ row ∈ rows, t.data k ∈ row := by
  intro k below
  have pos : 0 < n := Nat.pos_of_ne_zero fun zero => by simp [zero] at below
  have lt : k / n < rows.length := (Nat.div_lt_iff_lt_mul pos).mpr below
  have read := data (k / n) lt (k % n) (Nat.mod_lt k pos)
  rw [Nat.div_add_mod' k n, List.getD_eq_getElem _ _ (by rw [lengths _ (List.getElem_mem _)]; exact Nat.mod_lt k pos)]
    at read
  exact ⟨rows[k / n], List.getElem_mem _, read ▸ List.getElem_mem _⟩

end Torch.Tensor

namespace Train

open Torch Tensor
open Data (Head Sample Item PyError JsonValue numSlots)
open Data.ParallelDataset (getItem intFields longLabels longLabels_of_clamps fieldInt InClassRange ClampsIntoRange)
open Model (ParallelInstructionModel ParallelInstructionLoss Mode)

/-! ## Loops that return -/

section Returning

variable {ε β γ : Type} {f : β -> Except ε γ}

/-- A `mapM` whose every call returns, each result related to its input. -/
theorem mapM_forall₂ {R : β -> γ -> Prop} :
    ∀ {xs : List β}, (∀ x ∈ xs, ∃ y, f x = .ok y ∧ R x y) ->
      ∃ ys, xs.mapM f = .ok ys ∧ List.Forall₂ R xs ys
  | [], _ => ⟨[], rfl, .nil⟩
  | x :: xs, calls => by
      obtain ⟨y, called, related⟩ := calls x (List.mem_cons_self _ _)
      obtain ⟨ys, rest, relatedRest⟩ := mapM_forall₂ fun x' member => calls x' (List.mem_cons_of_mem _ member)
      exact ⟨y :: ys, by rw [List.mapM_cons, called, Data.ok_bind, rest]; rfl, .cons related relatedRest⟩

theorem exists_of_forall₂_mem {R : β -> γ -> Prop} {xs : List β} {ys : List γ}
    (related : List.Forall₂ R xs ys) {y : γ} (member : y ∈ ys) : ∃ x ∈ xs, R x y := by
  induction related with
  | nil => cases member
  | cons head _ ih =>
      rcases List.mem_cons.mp member with rfl | later
      · exact ⟨_, List.mem_cons_self _ _, head⟩
      · obtain ⟨x, inside, holds⟩ := ih later
        exact ⟨x, List.mem_cons_of_mem _ inside, holds⟩

/-- A `mapM` that returns relates every input to the result of its call. -/
theorem forall₂_of_mapM_ok :
    ∀ {xs : List β} {ys : List γ}, xs.mapM f = .ok ys -> List.Forall₂ (fun x y => f x = .ok y) xs ys
  | [], _, ran => by cases ran; exact .nil
  | x :: xs, ys, ran => by
      obtain ⟨first, called, restRan⟩ := Data.bind_eq_ok.mp (by simpa only [List.mapM_cons] using ran)
      obtain ⟨rest, restOk, made⟩ := Data.bind_eq_ok.mp restRan
      cases made
      exact .cons called (forall₂_of_mapM_ok restOk)

/-- A loop whose every step returns, from any state, returns. -/
theorem foldlM_ok {σ : Type} {step : σ -> β -> Except ε σ} :
    ∀ {xs : List β}, (∀ acc, ∀ x ∈ xs, ∃ next, step acc x = .ok next) ->
      ∀ init, ∃ final, xs.foldlM step init = .ok final
  | [], _, init => ⟨init, rfl⟩
  | x :: xs, steps, init => by
      obtain ⟨next, stepped⟩ := steps init x (List.mem_cons_self _ _)
      obtain ⟨final, ran⟩ := foldlM_ok (fun acc x' member => steps acc x' (List.mem_cons_of_mem _ member)) next
      exact ⟨final, by rw [List.foldlM_cons, stepped, Data.ok_bind, ran]⟩

end Returning

/-! ## `BatchSampler` -/

section Sampler

variable {β : Type} (batchSize : Nat)

/-- One index in the loop of `BatchSampler.__iter__` with `drop_last=False`:
the index joins the open batch, which is yielded once it holds `batch_size`
indices. -/
def batchStep (state : List (List β) × List β) (idx : β) : List (List β) × List β :=
  let batch := state.2 ++ [idx]
  if batch.length = batchSize then (state.1 ++ [batch], []) else (state.1, batch)

/-- `BatchSampler(sampler, batch_size, drop_last=False)`: the batches yielded
while the sampler's indices are read, then the open batch if it is not empty. -/
def batchSampler (indices : List β) : List (List β) :=
  let state := indices.foldl (batchStep batchSize) ([], [])
  if 0 < state.2.length then state.1 ++ [state.2] else state.1

/-- What the loop of the sampler keeps: the yielded batches and the open one
hold the indices read so far, in order; every yielded batch is full and the
open one is not. -/
structure Pending (read : List β) (state : List (List β) × List β) : Prop where
  joined : state.1.flatten ++ state.2 = read
  full : ∀ batch ∈ state.1, batch.length = batchSize
  open_lt : state.2.length < batchSize

variable {batchSize}

theorem Pending.step {read : List β} {state : List (List β) × List β}
    (pending : Pending batchSize read state) (idx : β) :
    Pending batchSize (read ++ [idx]) (batchStep batchSize state idx) := by
  have below := pending.open_lt
  dsimp only [batchStep]
  split_ifs with filled
  · refine ⟨by simp [← pending.joined], fun batch member => ?_, by simp; omega⟩
    rcases List.mem_append.mp member with old | new
    · exact pending.full batch old
    · rw [List.mem_singleton.mp new, filled]
  · refine ⟨by simp [← pending.joined], pending.full, ?_⟩
    simp only [List.length_append, List.length_singleton] at filled ⊢
    omega

theorem Pending.run {read : List β} {state : List (List β) × List β}
    (pending : Pending batchSize read state) (indices : List β) :
    Pending batchSize (read ++ indices) (indices.foldl (batchStep batchSize) state) := by
  induction indices generalizing read state with
  | nil => simpa using pending
  | cons idx rest ih => simpa using ih (pending.step idx)

theorem pending_batchSampler (positive : 0 < batchSize) (indices : List β) :
    Pending batchSize indices (indices.foldl (batchStep batchSize) ([], [])) :=
  (show Pending batchSize [] (([] : List (List β)), []) from ⟨rfl, by simp, positive⟩).run indices

section Positive

variable (positive : 0 < batchSize) (indices : List β)
include positive

/-- The batches hold every index once, in the sampler's order. -/
theorem join_batchSampler : (batchSampler batchSize indices).flatten = indices := by
  have pending := pending_batchSampler positive indices
  dsimp only [batchSampler]
  generalize indices.foldl (batchStep batchSize) ([], []) = state at pending ⊢
  split_ifs with nonempty
  · simpa using pending.joined
  · simpa [List.length_eq_zero.mp (Nat.eq_zero_of_not_pos nonempty)] using pending.joined

/-- Every batch holds between one and `batch_size` indices. -/
theorem batchSampler_runs :
    ∀ run ∈ batchSampler batchSize indices, 0 < run.length ∧ run.length ≤ batchSize := by
  have pending := pending_batchSampler positive indices
  intro run member
  dsimp only [batchSampler] at member
  split_ifs at member with nonempty
  · rcases List.mem_append.mp member with old | new
    · exact ⟨pending.full run old ▸ positive, (pending.full run old).le⟩
    · rw [List.mem_singleton.mp new]
      exact ⟨nonempty, pending.open_lt.le⟩
  · exact ⟨pending.full run member ▸ positive, (pending.full run member).le⟩

/-- There are `⌈n / batch_size⌉` batches, as `BatchSampler.__len__` counts
them. -/
theorem length_batchSampler :
    (batchSampler batchSize indices).length = (indices.length + batchSize - 1) / batchSize := by
  have pending := pending_batchSampler positive indices
  dsimp only [batchSampler]
  generalize indices.foldl (batchStep batchSize) ([], []) = state at pending ⊢
  have sum : (state.1.map List.length).sum = state.1.length * batchSize := by
    rw [List.map_congr_left pending.full, List.map_const', List.sum_replicate, smul_eq_mul]
  have count : state.1.length * batchSize + state.2.length = indices.length := by
    rw [← sum, ← List.length_flatten, ← List.length_append, pending.joined]
  have below := pending.open_lt
  split_ifs with nonempty
  · rw [List.length_append, List.length_singleton]
    exact (Nat.div_eq_of_lt_le (by rw [Nat.succ_mul]; omega) (by rw [Nat.succ_mul, Nat.succ_mul]; omega)).symm
  · exact (Nat.div_eq_of_lt_le (by omega) (by rw [Nat.succ_mul]; omega)).symm

end Positive

end Sampler

/-! ## `collate_fn` -/

/-- `collate_fn(batch)`: for each key of the first item, `torch.stack` of the
items' tensors, and for `category` the list of the items' values.  An empty
batch has no first item. -/
def collateFn (batch : List Item) : Except TorchError (Batch × List JsonValue) :=
  match batch with
  | [] => .error .indexError
  | _ => do
      let tokens ← stack (batch.map fun item => ofList (item.tokens.map Int.ofNat))
      let targets ← Head.traverse fun head => stack (batch.map fun item => ofList (item.labels head))
      pure (⟨tokens, targets⟩, batch.map (·.category))

/-- What `__getitem__` makes of a typed sample: `maxSeqLen` token ids, each a
byte or the padding id `256`, and `numSlots` labels per head. -/
structure ItemShape (maxSeqLen numSlots : Nat) (item : Item) : Prop where
  tokens_length : item.tokens.length = maxSeqLen
  tokens_le : ∀ token ∈ item.tokens, token ≤ 256
  labels_length : ∀ head, (item.labels head).length = numSlots

/-- `batch` stacks `items`: row `i` of the token ids and of every head's
targets is the `i`-th item's. -/
structure Stacks (maxSeqLen numSlots : Nat) (items : List Item) (batch : Batch) : Prop where
  tokens_shape : batch.tokens.shape = [items.length, maxSeqLen]
  targets_shape : ∀ head, (batch.targets head).shape = [items.length, numSlots]
  tokens : ∀ i (lt : i < items.length), ∀ j < maxSeqLen,
    batch.tokens.data (i * maxSeqLen + j) = (items[i].tokens.getD j 0 : Int)
  labels : ∀ head, ∀ i (lt : i < items.length), ∀ j < numSlots,
    (batch.targets head).data (i * numSlots + j) = (items[i].labels head).getD j 0

/-- `collate_fn` on items of one shape stacks them. -/
theorem collateFn_stacks {maxSeqLen numSlots : Nat} {items : List Item} (nonempty : items ≠ [])
    (shaped : ∀ item ∈ items, ItemShape maxSeqLen numSlots item) :
    ∃ batch, collateFn items = .ok (batch, items.map (·.category)) ∧
      Stacks maxSeqLen numSlots items batch := by
  obtain ⟨tokens, tokensOk, tokensShape, tokensData⟩ :=
    @stack_ofList Int _ (items.map fun item => item.tokens.map Int.ofNat) maxSeqLen
      (by simpa using nonempty) (by simp +contextual [List.mem_map, fun item member => (shaped item member).tokens_length])
  have labelled := fun head => @stack_ofList Int _ (items.map fun item : Item => item.labels head)
    numSlots (by simpa using nonempty)
    (by simp +contextual [List.mem_map, fun item member => (shaped item member).labels_length head])
  choose targets targetsOk targetsShape targetsData using labelled
  refine ⟨⟨tokens, targets⟩, ?_, ⟨by simpa using tokensShape, fun head => by simpa using targetsShape head, ?_, ?_⟩⟩
  · obtain ⟨first, rest, rfl⟩ := List.exists_cons_of_ne_nil nonempty
    simp only [List.map_map, Function.comp_def] at tokensOk targetsOk
    simp only [collateFn, tokensOk, targetsOk, Data.ok_bind, Data.Head.traverse_ok]
    rfl
  · intro i lt j below
    rw [tokensData i (by simpa using lt) j below, List.getElem_map]
    exact List.getD_map _ 0 Int.ofNat
  · intro head i lt j below
    rw [targetsData head i (by simpa using lt) j below, List.getElem_map]

/-! ## Samples `__getitem__` takes -/

/-- A sample of a string text without a lone surrogate and a list of
instructions whose first `numSlots` are objects with integer fields, each
stored as a label that fits in an `int64`. -/
def Typed (numSlots : Nat) (sample : Sample) : Prop :=
  ∃ text items, sample.text = .str text ∧ sample.instructions = .arr items ∧
    ∀ item ∈ items.take numSlots, intFields item = true ∧ longLabels item = true

/-- A sample of a string text without a lone surrogate and a list of
instructions whose first `numSlots` are objects with integer fields that the
clamps of `__getitem__` bring into each head's class range. -/
def Clamped (numSlots : Nat) (sample : Sample) : Prop :=
  ∃ text items, sample.text = .str text ∧ sample.instructions = .arr items ∧
    ∀ item ∈ items.take numSlots, intFields item = true ∧ ∀ head, ClampsIntoRange head (fieldInt item head)

theorem Clamped.typed {numSlots : Nat} {sample : Sample} (clamped : Clamped numSlots sample) :
    Typed numSlots sample :=
  let ⟨text, items, isText, isList, fields⟩ := clamped
  ⟨text, items, isText, isList, fun item member =>
    ⟨(fields item member).1, longLabels_of_clamps (fields item member).2⟩⟩

/-- `__getitem__` returns on a typed sample, an item of the sizes it pads to. -/
theorem getItem_of_typed (maxSeqLen numSlots : Nat) {sample : Sample} (typed : Typed numSlots sample) :
    ∃ item, getItem maxSeqLen numSlots sample = .ok item ∧ ItemShape maxSeqLen numSlots item := by
  obtain ⟨text, items, isText, isList, ints⟩ := typed
  obtain ⟨_, _, category⟩ := sample
  cases isText
  cases isList
  refine ⟨_, Data.ParallelDataset.getItem_intFields maxSeqLen numSlots text items category
    (fun item member => (ints item member).1) (fun item member => (ints item member).2),
    ⟨Model.length_padTokens _ _, fun _ => Model.le_of_mem_padTokens, fun head => ?_⟩⟩
  simp only [List.length_append, List.length_map, List.length_replicate, List.length_take]
  omega

/-- On a clamped sample, every label `__getitem__` emits is a class index of
its head. -/
theorem labels_of_clamped {maxSeqLen numSlots : Nat} {sample : Sample} (clamped : Clamped numSlots sample)
    {item : Item} (made : getItem maxSeqLen numSlots sample = .ok item) :
    ∀ head, ∀ label ∈ item.labels head, InClassRange head label := by
  obtain ⟨text, items, isText, isList, fields⟩ := clamped
  obtain ⟨_, _, category⟩ := sample
  cases isText
  cases isList
  rw [Data.ParallelDataset.getItem_intFields maxSeqLen numSlots text items category
    (fun other member => (fields other member).1) (fun other member => longLabels_of_clamps (fields other member).2)]
    at made
  cases made
  intro head label member
  rcases List.mem_append.mp member with encoded | padded
  · obtain ⟨other, belongs, rfl⟩ := List.mem_map.mp encoded
    exact (Data.ParallelDataset.encodeField_inClassRange_iff head _).mpr ((fields other belongs).2 head)
  · rw [(List.mem_replicate.mp padded).2]
    exact Data.ParallelDataset.inClassRange_zero head

/-! ## The loader -/

/-- Iterating over `DataLoader(dataset, batch_size, collate_fn=collate_fn)`
whose sampler selects the samples `order`: for every run of the batch sampler,
`__getitem__` on each sample, then `collate_fn` on the items. -/
def dataLoader (maxSeqLen numSlots batchSize : Nat) (order : List Sample) :
    Except (PyError ⊕ TorchError) (List (Batch × List JsonValue)) :=
  (batchSampler batchSize order).mapM fun run => do
    let items ← (run.mapM (getItem maxSeqLen numSlots)).mapError Sum.inl
    (collateFn items).mapError Sum.inr

/-- What the loader yields for a run of samples: the items `__getitem__` makes
of them, stacked, and their categories. -/
def Collates (maxSeqLen numSlots : Nat) (run : List Sample) (collated : Batch × List JsonValue) : Prop :=
  ∃ items, run.mapM (getItem maxSeqLen numSlots) = .ok items ∧
    (∀ item ∈ items, ItemShape maxSeqLen numSlots item) ∧
    Stacks maxSeqLen numSlots items collated.1 ∧ collated.2 = items.map (·.category)

/-- On typed samples the loader returns, one collated batch per run. -/
theorem dataLoader_collates {maxSeqLen numSlots batchSize : Nat} {order : List Sample}
    (positive : 0 < batchSize) (typed : ∀ sample ∈ order, Typed numSlots sample) :
    ∃ loader, dataLoader maxSeqLen numSlots batchSize order = .ok loader ∧
      List.Forall₂ (Collates maxSeqLen numSlots) (batchSampler batchSize order) loader := by
  refine mapM_forall₂ fun run member => ?_
  have inOrder : ∀ sample ∈ run, sample ∈ order := fun sample inside =>
    join_batchSampler positive order ▸ List.mem_flatten_of_mem member inside
  obtain ⟨items, fetched, shapes⟩ := @mapM_forall₂ _ _ _ _ (fun _ item => ItemShape maxSeqLen numSlots item) _
    fun sample inside => getItem_of_typed maxSeqLen numSlots (typed sample (inOrder sample inside))
  have shaped : ∀ item ∈ items, ItemShape maxSeqLen numSlots item := fun item inside =>
    let ⟨_, _, shape⟩ := exists_of_forall₂_mem shapes inside
    shape
  have nonempty : items ≠ [] := by
    rw [← List.length_pos, ← shapes.length_eq]
    exact (batchSampler_runs positive order run member).1
  obtain ⟨batch, collated, stacked⟩ := collateFn_stacks nonempty shaped
  refine ⟨(batch, items.map (·.category)), ?_, items, fetched, shaped, stacked, rfl⟩
  simp only [fetched, Except.mapError, Data.ok_bind, collated]

/-- The loader yields no batch exactly when it has no sample. -/
theorem loader_eq_nil_iff {maxSeqLen numSlots batchSize : Nat} (positive : 0 < batchSize) {order : List Sample}
    {loader : List (Batch × List JsonValue)}
    (runs : List.Forall₂ (Collates maxSeqLen numSlots) (batchSampler batchSize order) loader) :
    loader = [] ↔ order = [] := by
  rw [← List.length_eq_zero, ← runs.length_eq, length_batchSampler positive order, ← List.length_eq_zero,
    Nat.div_eq_zero_iff positive]
  omega

/-! ## One epoch -/

variable {α : Type} [LinearOrderedField α]

/-- A `ParallelInstructionModel` of the sizes `main` builds for a dataset of
sequence length `maxSeqLen`: `num_slots` slots, room for `maxSeqLen` positions
and a hidden size of at least one.  An optimizer step changes its parameters,
never these sizes. -/
structure Sized (maxSeqLen : Nat) (model : ParallelInstructionModel α) : Prop where
  slots : model.numSlots = numSlots
  within : maxSeqLen ≤ model.maxSeqLen
  wide : 0 < model.hiddenDim

/-- What `train_epoch` carries from batch to batch: the model, of the sizes
`main` builds, and the dropout draws of its next forward pass. -/
structure TrainState (α : Type) (maxSeqLen : Nat) where
  model : ParallelInstructionModel α
  sized : Sized maxSeqLen model
  draws : Nat -> Nat -> Bool

/-- `model(tokens)` in `train_epoch`, after `model.train()`. -/
def TrainState.forward {maxSeqLen : Nat} (S : Scalars α) (state : TrainState α maxSeqLen) (x : Tensor Int) :
    Except TorchError (Head -> Tensor α) :=
  state.model.forward S (.train state.draws) x

/-- The token ids of a stack of items of one shape lie below every vocabulary
that holds the padding id. -/
theorem Stacks.tokensInRange {maxSeqLen numSlots : Nat} {items : List Item} {batch : Batch}
    (stacked : Stacks maxSeqLen numSlots items batch)
    (shaped : ∀ item ∈ items, ItemShape maxSeqLen numSlots item) {vocabSize : Nat}
    (padding_lt : 256 < vocabSize) : Model.TokensInRange batch.tokens vocabSize := by
  intro index inside
  rw [stacked.tokens_shape] at inside
  rcases inside with _ | @⟨_, i, _, _, first, _ | @⟨_, j, _, _, second, _ | _⟩⟩
  have item := shaped _ (List.getElem_mem first)
  have le : items[i].tokens.getD j 0 ≤ 256 := by
    rw [List.getD_eq_getElem _ _ (item.tokens_length ▸ second)]
    exact item.tokens_le _ (List.getElem_mem _)
  simp only [Tensor.get, stacked.tokens_shape, offset, List.prod_cons, List.prod_nil, mul_one, add_zero,
    stacked.tokens i first j second]
  omega

/-- A batch the loader collates from clamped samples fits the logits of a model
of the sizes `main` builds, in either mode. -/
theorem Collates.fits (S : Scalars α) {model : ParallelInstructionModel α} (mode : Mode)
    {maxSeqLen : Nat} (sized : Sized maxSeqLen model) (long : 2 ≤ maxSeqLen) {run : List Sample}
    {collated : Batch × List JsonValue} (nonempty : run ≠ [])
    (clamped : ∀ sample ∈ run, Clamped numSlots sample) (collates : Collates maxSeqLen numSlots run collated) :
    ∃ logits, model.forward S mode collated.1.tokens = .ok logits ∧
      Fits logits collated.1 run.length numSlots := by
  obtain ⟨items, fetched, shaped, stacked, -⟩ := collates
  have fetchedEach := forall₂_of_mapM_ok fetched
  have lengths : items.length = run.length := fetchedEach.length_eq.symm
  have pos : 0 < items.length := lengths ▸ List.length_pos.mpr nonempty
  obtain ⟨logits, computed, logitShape⟩ := model.forward_shape S mode stacked.tokens_shape
    (stacked.tokensInRange shaped model.padding_lt) pos (by omega) sized.within sized.wide
    fun _ => by have := Nat.mul_le_mul pos long; omega
  refine ⟨logits, computed, ⟨[maxSeqLen], by rw [stacked.tokens_shape, lengths]⟩,
    fun head => by rw [logitShape, sized.slots, lengths], fun head => by rw [stacked.targets_shape, lengths], ?_⟩
  intro head k below
  obtain ⟨labels, listed, member⟩ := @mem_of_stacked Int _ (items.map fun item => item.labels head) numSlots _
    (by simp +contextual [List.mem_map, fun item member => (shaped item member).labels_length head])
    (fun i lt j inside => by simpa using stacked.labels head i (by simpa using lt) j inside)
    k (by simpa [lengths] using below)
  obtain ⟨item, inItems, rfl⟩ := List.mem_map.mp listed
  obtain ⟨sample, inRun, made⟩ := exists_of_forall₂_mem fetchedEach inItems
  exact .inr (labels_of_clamped (clamped sample inRun) made head _ member)

/-- Every batch of a loader over clamped samples fits the logits of a model of
the sizes `main` builds, in either mode. -/
theorem loader_fits (S : Scalars α) {model : ParallelInstructionModel α} (mode : Mode)
    {maxSeqLen batchSize : Nat} (sized : Sized maxSeqLen model) (long : 2 ≤ maxSeqLen) (positive : 0 < batchSize)
    {order : List Sample} (clamped : ∀ sample ∈ order, Clamped numSlots sample)
    {loader : List (Batch × List JsonValue)}
    (runs : List.Forall₂ (Collates maxSeqLen numSlots) (batchSampler batchSize order) loader) :
    ∀ batch ∈ loader.map Prod.fst, ∃ logits rows slots, model.forward S mode batch.tokens = .ok logits ∧
      Fits logits batch rows slots := by
  intro batch member
  obtain ⟨collated, inLoader, rfl⟩ := List.mem_map.mp member
  obtain ⟨run, inRuns, collates⟩ := exists_of_forall₂_mem runs inLoader
  have inOrder : ∀ sample ∈ run, sample ∈ order := fun sample inside =>
    join_batchSampler positive order ▸ List.mem_flatten_of_mem inRuns inside
  obtain ⟨logits, computed, fits⟩ := collates.fits S mode sized long
    (List.length_pos.mp (batchSampler_runs positive order run inRuns).1)
    (fun sample inside => clamped sample (inOrder sample inside))
  exact ⟨logits, run.length, numSlots, computed, fits⟩

/-- `evaluate` returns when every batch fits the logits the model gives it. -/
theorem evaluate_fits (S : Scalars α) (criterion : ParallelInstructionLoss α)
    (forward : Tensor Int -> Except TorchError (Head -> Tensor α)) (loader : List Batch)
    (fits : ∀ batch ∈ loader, ∃ logits rows slots, forward batch.tokens = .ok logits ∧
      Fits logits batch rows slots) :
    ∃ metrics, evaluate S criterion forward loader = .ok metrics := by
  obtain ⟨totals, ran⟩ := foldlM_ok (fun acc batch member =>
    let ⟨_, _, _, computed, fit⟩ := fits batch member
    let ⟨_, stepped⟩ := evalStep_fits S criterion acc computed fit
    ⟨_, stepped⟩) ⟨[], 0, 0, 0, 0⟩
  exact ⟨_, by rw [evaluate, ran, Data.ok_bind]; rfl⟩

/-! ## What `main` reads after the epoch -/

/-- `val_size = int(len(dataset) * args.val_split)`; `int` truncates toward
zero. -/
def valSize (n : Nat) (valSplit : ℚ) : Int :=
  if 0 ≤ (n : ℚ) * valSplit then ⌊(n : ℚ) * valSplit⌋ else ⌈(n : ℚ) * valSplit⌉

/-- `d[key]` on a dict of losses. -/
def readKey (d : List (String × α)) (key : String) : Except PyError α :=
  match d.lookup key with
  | some value => .ok value
  | none => .error .keyError

/-- The reads of the body of `main`'s loop up to the comparison of
accuracies, in order: `train_losses['total']`, `['opcode']` and `['valid']`
for the print, then `val_losses['total']`, `['valid_acc']` and
`['opcode_acc']`.  The rest of the body reads the same keys again.  It gives
the evaluation's opcode accuracy and total loss. -/
def epochReads (trainLosses valLosses : List (String × α)) : Except PyError (α × α) := do
  let _ ← readKey trainLosses "total"
  let _ ← readKey trainLosses "opcode"
  let _ ← readKey trainLosses "valid"
  let total ← readKey valLosses "total"
  let _ ← readKey valLosses "valid_acc"
  let opcodeAcc ← readKey valLosses "opcode_acc"
  pure (opcodeAcc, total)

/-- At the default `val_split = 0.1`, the validation part is empty exactly for
fewer than ten samples. -/
theorem valSize_tenth (n : Nat) : valSize n (1 / 10) = 0 ↔ n < 10 := by
  have nonneg : (0 : ℚ) ≤ (n : ℚ) * (1 / 10) := by positivity
  have tenth : (n : ℚ) * (1 / 10) < 1 ↔ (n : ℚ) < 10 := by constructor <;> intro <;> linarith
  rw [valSize, if_pos nonneg, Int.floor_eq_zero_iff, Set.mem_Ico, and_iff_right nonneg, tenth]
  exact_mod_cast Iff.rfl

theorem valSize_nonneg (n : Nat) {valSplit : ℚ} (nonneg : 0 ≤ valSplit) : 0 ≤ valSize n valSplit := by
  rw [valSize, if_pos (by positivity)]
  exact Int.floor_nonneg.mpr (by positivity)

section Reads

variable {criterion : ParallelInstructionLoss α} {trainLosses valLosses : List (String × α)}

omit [LinearOrderedField α] in
theorem readKey_of_lookup {d : List (String × α)} {key : String} {value : α} (found : d.lookup key = some value) :
    readKey d key = .ok value := by
  simp only [readKey, found]

omit [LinearOrderedField α] in
theorem readKey_of_missing {d : List (String × α)} {key : String} (missing : d.lookup key = none) :
    readKey d key = .error .keyError := by
  simp only [readKey, missing]

/-- After a training dict with every loss key, only the reads of the
evaluation dict can raise. -/
theorem epochReads_eq (trained : LossDict criterion trainLosses) :
    epochReads trainLosses valLosses = (do
      let total ← readKey valLosses "total"
      let _ ← readKey valLosses "valid_acc"
      let opcodeAcc ← readKey valLosses "opcode_acc"
      pure (opcodeAcc, total)) := by
  obtain ⟨_, trainTotal⟩ := Option.isSome_iff_exists.mp (trained.keys "total" (by simp [lossKeys]))
  obtain ⟨_, trainOpcode⟩ := Option.isSome_iff_exists.mp (trained.keys "opcode" (by simp [lossKeys, Head.all, Head.key]))
  obtain ⟨_, trainValid⟩ := Option.isSome_iff_exists.mp (trained.keys "valid" (by simp [lossKeys, Head.all, Head.key]))
  simp only [epochReads, readKey_of_lookup trainTotal, readKey_of_lookup trainOpcode, readKey_of_lookup trainValid,
    Data.ok_bind]

theorem epochReads_ok (trained : LossDict criterion trainLosses) {total validAcc opcodeAcc : α}
    (foundTotal : valLosses.lookup "total" = some total) (foundValid : valLosses.lookup "valid_acc" = some validAcc)
    (foundOpcode : valLosses.lookup "opcode_acc" = some opcodeAcc) :
    epochReads trainLosses valLosses = .ok (opcodeAcc, total) := by
  rw [epochReads_eq trained, readKey_of_lookup foundTotal, readKey_of_lookup foundValid,
    readKey_of_lookup foundOpcode]
  rfl

theorem epochReads_of_missing (trained : LossDict criterion trainLosses) (missing : valLosses.lookup "total" = none) :
    epochReads trainLosses valLosses = .error .keyError := by
  rw [epochReads_eq trained, readKey_of_missing missing]
  rfl

end Reads

/-- Over an empty loader `evaluate` returns only the two accuracies. -/
theorem evaluate_nil (S : Scalars α) (criterion : ParallelInstructionLoss α)
    (forward : Tensor Int -> Except TorchError (Head -> Tensor α)) :
    ∃ metrics, evaluate S criterion forward [] = .ok metrics ∧ metrics.lookup "total" = none :=
  ⟨_, rfl, by rw [lookup_setItem, if_neg (by decide), lookup_setItem, if_neg (by decide)]; rfl⟩

/-- Over a non-empty loader the dict `evaluate` returns has `total` and both
accuracies. -/
theorem evaluate_keys (S : Scalars α) (criterion : ParallelInstructionLoss α)
    {forward : Tensor Int -> Except TorchError (Head -> Tensor α)} {loader : List Batch} (nonempty : loader ≠ [])
    {metrics : List (String × α)} (evaluated : evaluate S criterion forward loader = .ok metrics) :
    ∃ total validAcc opcodeAcc, metrics.lookup "total" = some total ∧
      metrics.lookup "valid_acc" = some validAcc ∧ metrics.lookup "opcode_acc" = some opcodeAcc := by
  obtain ⟨totals, ran, made⟩ := Data.bind_eq_ok.mp evaluated
  simp only [pure, Except.pure, Except.ok.injEq] at made
  subst made
  have dict := foldlM_lossDict EvalTotals.losses (fun _ _ _ weighted stepped => evalStep_lossDict weighted stepped)
    nonempty (weightedTotal_nil criterion) ran
  obtain ⟨total, found⟩ :=
    Option.isSome_iff_exists.mp ((dict.average loader.length).keys "total" (by simp [lossKeys]))
  refine ⟨total, (totals.correctValid : α) / ((max 1 totals.totalSlots : Nat) : α),
    (totals.correctOpcode : α) / ((max 1 totals.totalValid : Nat) : α), ?_, ?_, by rw [lookup_setItem, if_pos rfl]⟩
  · rw [lookup_setItem, if_neg (by decide), lookup_setItem, if_neg (by decide), found]
  · rw [lookup_setItem, if_neg (by decide), lookup_setItem, if_pos rfl]

/-- With the default `val_split = 0.1`, take a dataset of `n` clamped samples
(texts that encode to UTF-8, fields the clamps bring into range), any batch
size `≥ 1`, sequence length `≥ 2`, and a model of the sizes `main` builds.  The validation loader returns and `evaluate` runs over it, and the
reads of the epoch's body after a training dict with every loss key raise
`KeyError` exactly when `n < 10`.  Then the validation part is empty, its
loader yields no batch, and `evaluate` returns no `total`. -/
theorem epochReads_keyError_iff (S : Scalars α) (criterion : ParallelInstructionLoss α)
    {maxSeqLen batchSize n : Nat} (positive : 0 < batchSize) (long : 2 ≤ maxSeqLen) {valOrder : List Sample}
    (part : (valOrder.length : Int) = valSize n (1 / 10)) (clamped : ∀ sample ∈ valOrder, Clamped numSlots sample)
    {model : ParallelInstructionModel α} (sized : Sized maxSeqLen model) {trainLosses : List (String × α)}
    (trained : LossDict criterion trainLosses) :
    ∃ valLoader valLosses, dataLoader maxSeqLen numSlots batchSize valOrder = .ok valLoader ∧
      evaluate S criterion (model.forward S .eval) (valLoader.map Prod.fst) = .ok valLosses ∧
      (epochReads trainLosses valLosses = .error .keyError ↔ n < 10) := by
  obtain ⟨valLoader, loaded, runs⟩ := @dataLoader_collates maxSeqLen numSlots batchSize valOrder positive
    fun sample member => (clamped sample member).typed
  obtain ⟨valLosses, evaluated⟩ := evaluate_fits S criterion _ _ (loader_fits S .eval sized long positive clamped runs)
  refine ⟨valLoader, valLosses, loaded, evaluated, ?_⟩
  by_cases few : n < 10
  · have empty : valOrder = [] := List.length_eq_zero.mp (by have := (valSize_tenth n).mpr few; omega)
    obtain rfl : valLoader = [] := (loader_eq_nil_iff positive runs).mpr empty
    obtain ⟨metrics, ran, missing⟩ := evaluate_nil S criterion (model.forward S .eval)
    rw [List.map_nil, ran] at evaluated
    cases evaluated
    exact iff_of_true (epochReads_of_missing trained missing) few
  · have filled : valOrder ≠ [] := by
      rw [Ne, ← List.length_eq_zero]
      have := mt (valSize_tenth n).mp few
      have := valSize_nonneg n (show (0 : ℚ) ≤ 1 / 10 by norm_num)
      omega
    obtain ⟨total, validAcc, opcodeAcc, foundTotal, foundValid, foundOpcode⟩ := evaluate_keys S criterion
      (by rwa [Ne, List.map_eq_nil_iff, loader_eq_nil_iff positive runs]) evaluated
    rw [epochReads_ok trained foundTotal foundValid foundOpcode]
    exact iff_of_false (fun raised => by cases raised) few

theorem epochReads_keyError_five_samples :
    let model : ParallelInstructionModel ℚ := .filled 257 2 2 64 1 2 (by decide) Nat.one_pos rfl 0
    let S : Scalars ℚ := ⟨id, id, id, id, id, id⟩
    let trainLosses : List (String × ℚ) := accumulate [] (Head.all.map (fun head => (head.key, 0)) ++ [("total", 0)])
    ((([] : List Sample).length : Int) = valSize 5 (1 / 10)) ∧ LossDict .defaults trainLosses ∧
      ∃ valLoader valLosses, dataLoader 2 numSlots 1 [] = .ok valLoader ∧
        evaluate S .defaults (model.forward S .eval) (valLoader.map Prod.fst) = .ok valLosses ∧
        (epochReads trainLosses valLosses = .error .keyError ↔ 5 < 10) := by
  intro model S trainLosses
  have part : (([] : List Sample).length : Int) = valSize 5 (1 / 10) := ((valSize_tenth 5).mpr (by decide)).symm
  have trained : LossDict .defaults trainLosses := LossDict.accumulate (weightedTotal_nil _) (by simp [Head.all])
  exact ⟨part, trained, epochReads_keyError_iff S .defaults (by decide) le_rfl part (by simp)
    (show Sized 2 model from ⟨rfl, le_rfl, by decide⟩) trained⟩

end Train
end Neurlang
