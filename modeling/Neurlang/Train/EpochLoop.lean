import Mathlib.Algebra.Order.Ring.Rat
import Mathlib.Order.WithBot
import Neurlang.Data.Json

namespace Neurlang
namespace Train

/-!
# The epoch loop of `main`, model selection and resumption

`main` in `train.py` runs `for epoch in range(start_epoch, args.epochs)`.  Each
epoch trains once at the scheduler's current learning rate, evaluates, and then
either records a strict improvement of the validation opcode accuracy (writing
`best_model.pt` and resetting the patience counter) or counts one more epoch
without one and breaks when the counter reaches the patience.  Only an epoch
that does not break calls `scheduler.step()`.

What `train_epoch` does to the weights and the optimizer is the network's
business and enters as the function `train`, indexed by the scheduler position
that fixes its cosine learning rate.  Of `evaluate` the loop reads only the
opcode accuracy and the total loss, given here as the report of each epoch.

With `--checkpoint`, `main` loads the weights and, from an enriched dict, the
stored `epoch` as the first loop index.  It builds a fresh optimizer and
scheduler and starts model selection from scratch; the stored optimizer state,
`val_loss` and `opcode_acc` are never read.  The config it writes last reads the
loop variable `epoch`, which is unbound when the loop ran no epoch.
-/

/-- What the loop reads from `evaluate`: `val_losses['opcode_acc']` and
`val_losses['total']`. -/
structure EpochReport where
  opcodeAcc : ℚ
  total : ℚ

/-- The enriched dict `torch.save` writes to `best_model.pt`. -/
structure Checkpoint (W O : Type) where
  epoch : Nat
  modelState : W
  optimizerState : O
  valLoss : ℚ
  opcodeAcc : ℚ

/-- The loop's state between epochs.  `schedulerPos` counts the
`scheduler.step()` calls, and `bestModel` is what this run last wrote to
`best_model.pt`. -/
structure LoopState (W O : Type) where
  model : W
  optimizer : O
  schedulerPos : Nat
  bestValLoss : WithTop ℚ
  bestOpcodeAcc : ℚ
  patienceCounter : Nat
  bestModel : Option (Checkpoint W O)

variable {W O : Type}

/-- The state before the first epoch: the given weights, a fresh optimizer and
scheduler, `best_val_loss = inf`, `best_opcode_acc = 0.0`, no patience spent and
nothing written. -/
def LoopState.initial (model : W) (optimizer : O) : LoopState W O :=
  ⟨model, optimizer, 0, ⊤, 0, 0, none⟩

section Loop

variable (train : Nat -> W -> O -> W × O) (patience : Int) (reports : Nat -> EpochReport)

/-- One pass of the loop body for `epoch`; the flag is the `break`. -/
def epochStep (epoch : Nat) (state : LoopState W O) : LoopState W O × Bool :=
  let trained := train state.schedulerPos state.model state.optimizer
  let report := reports epoch
  if state.bestOpcodeAcc < report.opcodeAcc then
    (⟨trained.1, trained.2, state.schedulerPos + 1, report.total, report.opcodeAcc, 0,
      some ⟨epoch, trained.1, trained.2, report.total, report.opcodeAcc⟩⟩, false)
  else if patience ≤ ((state.patienceCounter + 1 : Nat) : Int) then
    (⟨trained.1, trained.2, state.schedulerPos, state.bestValLoss, state.bestOpcodeAcc,
      state.patienceCounter + 1, state.bestModel⟩, true)
  else
    (⟨trained.1, trained.2, state.schedulerPos + 1, state.bestValLoss, state.bestOpcodeAcc,
      state.patienceCounter + 1, state.bestModel⟩, false)

/-- `for epoch in range(epoch, epoch + count)` from `state`: the state after
each epoch the loop runs, in order, ending at the `break`. -/
def runEpochs : Nat -> Nat -> LoopState W O -> List (LoopState W O)
  | _, 0, _ => []
  | epoch, count + 1, state =>
      let step := epochStep train patience reports epoch state
      step.1 :: if step.2 then [] else runEpochs (epoch + 1) count step.1

end Loop

/-! ## `main` -/

/-- What `torch.load` returns for `--checkpoint`: a bare state dict, or the
enriched dict of `best_model.pt`. -/
inductive LoadedCheckpoint (W O : Type) where
  | stateDict (weights : W)
  | enriched (saved : Checkpoint W O)

/-- The numbers of the config `main` writes last; `model_type` and
`max_seq_len` are copied from the arguments. -/
structure Config where
  bestOpcodeAcc : ℚ
  bestValLoss : WithTop ℚ
  epochsTrained : Nat

/-- What one call of `main` leaves: the states after its epochs, the weights
it saves as the final model, and its config, or the exception that stops it
before the config is written. -/
structure MainRun (W O : Type) where
  epochs : List (LoopState W O)
  finalModel : W
  config : Except Data.PyError Config

/-- The first loop index and the weights `main` starts from. -/
def startOf (fresh : W) : Option (LoadedCheckpoint W O) -> Nat × W
  | none => (0, fresh)
  | some (.stateDict weights) => (0, weights)
  | some (.enriched saved) => (saved.epoch, saved.modelState)

/-- What `main` does after its loop: it saves the weights of the last state
(the loaded ones when no epoch ran) and writes the config from that state,
whose `epochs_trained` reads the loop variable `epoch`, unbound when the loop
ran no epoch. -/
def finish (start : Nat) (initial : LoopState W O) (states : List (LoopState W O)) : MainRun W O :=
  let last := states.getLastD initial
  ⟨states, last.model,
    match states.length with
    | 0 => .error .nameError
    | ran + 1 => .ok ⟨last.bestOpcodeAcc, last.bestValLoss, start + ran + 1⟩⟩

/-- `main` from the loaded checkpoint on: the loop over
`range(start_epoch, epochs)` from a fresh optimizer and scheduler, then the
final save and the config. -/
def main (train : Nat -> W -> O -> W × O) (patience epochs : Int) (reports : Nat -> EpochReport)
    (fresh : W) (freshOptimizer : O) (checkpoint : Option (LoadedCheckpoint W O)) : MainRun W O :=
  let start := startOf fresh checkpoint
  let initial := LoopState.initial start.2 freshOptimizer
  finish start.1 initial (runEpochs train patience reports start.1 (epochs - start.1).toNat initial)

theorem main_epochs (train : Nat -> W -> O -> W × O) (patience epochs : Int)
    (reports : Nat -> EpochReport) (fresh : W) (freshOptimizer : O)
    (checkpoint : Option (LoadedCheckpoint W O)) :
    (main train patience epochs reports fresh freshOptimizer checkpoint).epochs =
      runEpochs train patience reports (startOf fresh checkpoint).1
        (epochs - (startOf fresh checkpoint).1).toNat
        (LoopState.initial (startOf fresh checkpoint).2 freshOptimizer) := rfl

/-! ## The selection rule, from a start epoch -/

section Selection

variable (reports : Nat -> EpochReport) (start : Nat)

/-- The epochs `start, ..., stop - 1`. -/
def epochsBetween (stop : Nat) : List Nat :=
  List.range' start (stop - start)

/-- `max(0, a_start, ..., a_{stop-1})` for the opcode accuracies `a`. -/
def bestBetween (stop : Nat) : ℚ :=
  ((epochsBetween start stop).map fun i => (reports i).opcodeAcc).foldl max 0

/-- Epoch `e` strictly improves on 0 and on every accuracy since `start`. -/
def Improves (e : Nat) : Prop :=
  bestBetween reports start e < (reports e).opcodeAcc

instance : DecidablePred (Improves reports start) :=
  fun e => inferInstanceAs (Decidable (bestBetween reports start e < (reports e).opcodeAcc))

/-- The first epoch since `start` whose accuracy equals `bestBetween start stop`. -/
def firstBest (stop : Nat) : Option Nat :=
  (epochsBetween start stop).find? fun i => (reports i).opcodeAcc = bestBetween reports start stop

/-- The epochs before `stop` since the last strict improvement, or all of them
since `start` when there was none. -/
def sinceImprovement (stop : Nat) : Nat :=
  match ((epochsBetween start stop).filter fun i => decide (Improves reports start i)).getLast? with
  | some last => stop - (last + 1)
  | none => stop - start

/-- What a loop state holds after the epochs `start, ..., stop - 1` of a run
that began with `LoopState.initial`. -/
structure Selects (stop : Nat) (state : LoopState W O) : Prop where
  best : state.bestOpcodeAcc = bestBetween reports start stop
  written : state.bestModel.map Checkpoint.epoch =
    if 0 < bestBetween reports start stop then firstBest reports start stop else none
  counter : state.patienceCounter = sinceImprovement reports start stop

end Selection

theorem foldl_max_eq_or_mem (values : List ℚ) :
    ∀ acc, values.foldl max acc = acc ∨ values.foldl max acc ∈ values := by
  induction values with
  | nil => intro acc; exact .inl rfl
  | cons value rest ih =>
      intro acc
      rcases ih (max acc value) with same | member
      · rcases max_choice acc value with left | right
        · exact .inl (same.trans left)
        · exact .inr (List.mem_cons.mpr (.inl (same.trans right)))
      · exact .inr (List.mem_cons_of_mem _ member)

theorem le_foldl_max (values : List ℚ) :
    ∀ acc, acc ≤ values.foldl max acc ∧ ∀ value ∈ values, value ≤ values.foldl max acc := by
  induction values with
  | nil => intro acc; simp
  | cons value rest ih =>
      intro acc
      obtain ⟨above, bounds⟩ := ih (max acc value)
      refine ⟨(le_max_left acc value).trans above, ?_⟩
      simp only [List.mem_cons, forall_eq_or_imp, List.foldl_cons]
      exact ⟨(le_max_right acc value).trans above, bounds⟩

section SelectionLemmas

variable {reports : Nat -> EpochReport} {start : Nat}

theorem epochsBetween_succ {e : Nat} (later : start ≤ e) :
    epochsBetween start (e + 1) = epochsBetween start e ++ [e] := by
  rw [epochsBetween, epochsBetween, show e + 1 - start = (e - start) + 1 by omega,
    List.range'_concat]
  congr 2
  omega

theorem lt_of_mem_epochsBetween {e i : Nat} (member : i ∈ epochsBetween start e) :
    start ≤ i ∧ i < e := by
  obtain ⟨k, below, rfl⟩ := List.mem_range'.mp member
  omega

theorem bestBetween_succ {e : Nat} (later : start ≤ e) :
    bestBetween reports start (e + 1) = max (bestBetween reports start e) (reports e).opcodeAcc := by
  simp [bestBetween, epochsBetween_succ later, List.foldl_append]

theorem bestBetween_nonneg (e : Nat) : 0 ≤ bestBetween reports start e :=
  (le_foldl_max _ 0).1

theorem le_bestBetween {e i : Nat} (member : i ∈ epochsBetween start e) :
    (reports i).opcodeAcc ≤ bestBetween reports start e :=
  (le_foldl_max _ 0).2 _ (List.mem_map_of_mem _ member)

theorem firstBest_of_pos {e : Nat} (positive : 0 < bestBetween reports start e) :
    (firstBest reports start e).isSome := by
  rcases foldl_max_eq_or_mem ((epochsBetween start e).map fun i => (reports i).opcodeAcc) 0 with
    zero | member
  · exact absurd zero (ne_of_gt positive)
  · obtain ⟨i, belongs, attains⟩ := List.mem_map.mp member
    rw [firstBest, List.find?_isSome]
    exact ⟨i, belongs, by simp [attains, bestBetween]⟩

theorem firstBest_succ_of_improves {e : Nat} (later : start ≤ e)
    (improves : Improves reports start e) : firstBest reports start (e + 1) = some e := by
  have best : bestBetween reports start (e + 1) = (reports e).opcodeAcc := by
    rw [bestBetween_succ later, max_eq_right improves.le]
  have earlier : (epochsBetween start e).find?
      (fun i => decide ((reports i).opcodeAcc = (reports e).opcodeAcc)) = none := by
    rw [List.find?_eq_none]
    intro i member same
    have bounded : (reports i).opcodeAcc ≤ bestBetween reports start e := le_bestBetween member
    rw [decide_eq_true_eq.mp same] at bounded
    exact absurd improves (not_lt.mpr bounded)
  rw [firstBest, best, epochsBetween_succ later, List.find?_append, earlier]
  simp

theorem firstBest_succ_of_stays {e : Nat} (later : start ≤ e) (stays : ¬ Improves reports start e)
    (positive : 0 < bestBetween reports start e) :
    firstBest reports start (e + 1) = firstBest reports start e := by
  have best : bestBetween reports start (e + 1) = bestBetween reports start e := by
    rw [bestBetween_succ later, max_eq_left (not_lt.mp stays)]
  obtain ⟨i, found⟩ := Option.isSome_iff_exists.mp (firstBest_of_pos positive)
  rw [found]
  unfold firstBest at found ⊢
  rw [best, epochsBetween_succ later, List.find?_append, found]
  rfl

theorem sinceImprovement_succ {e : Nat} (later : start ≤ e) :
    sinceImprovement reports start (e + 1) =
      if Improves reports start e then 0 else sinceImprovement reports start e + 1 := by
  unfold sinceImprovement
  rw [epochsBetween_succ later, List.filter_append, List.getLast?_append]
  by_cases improves : Improves reports start e
  · simp [improves]
  · simp only [List.filter_cons, List.filter_nil, decide_eq_true_eq, improves, if_false,
      List.getLast?_nil, Option.none_or]
    split
    · rename_i last found
      have member := List.mem_of_getLast?_eq_some found
      have below := (lt_of_mem_epochsBetween (List.mem_filter.mp member).1).2
      omega
    · omega

end SelectionLemmas

section Step

variable (train : Nat -> W -> O -> W × O) (patience : Int) {reports : Nat -> EpochReport}
  {start e : Nat} {state : LoopState W O}

/-- One epoch keeps the loop state in step with the selection rule. -/
theorem selects_epochStep (later : start ≤ e) (selects : Selects reports start e state) :
    Selects reports start (e + 1) (epochStep train patience reports e state).1 := by
  by_cases improves : Improves reports start e
  · have above : state.bestOpcodeAcc < (reports e).opcodeAcc := selects.best ▸ improves
    have best : bestBetween reports start (e + 1) = (reports e).opcodeAcc := by
      rw [bestBetween_succ later, max_eq_right improves.le]
    have positive : 0 < bestBetween reports start (e + 1) :=
      best ▸ (bestBetween_nonneg e).trans_lt improves
    simp only [epochStep, if_pos above]
    exact ⟨best.symm, by simp [positive, firstBest_succ_of_improves later improves],
      by simp [sinceImprovement_succ later, improves]⟩
  · have notAbove : ¬ state.bestOpcodeAcc < (reports e).opcodeAcc := selects.best ▸ improves
    have sameBest : bestBetween reports start (e + 1) = bestBetween reports start e := by
      rw [bestBetween_succ later, max_eq_left (not_lt.mp improves)]
    have best : state.bestOpcodeAcc = bestBetween reports start (e + 1) :=
      selects.best.trans sameBest.symm
    have written : state.bestModel.map Checkpoint.epoch =
        if 0 < bestBetween reports start (e + 1) then firstBest reports start (e + 1) else none := by
      rw [selects.written, sameBest]
      by_cases positive : 0 < bestBetween reports start e
      · rw [if_pos positive, if_pos positive, firstBest_succ_of_stays later improves positive]
      · rw [if_neg positive, if_neg positive]
    have counter : state.patienceCounter + 1 = sinceImprovement reports start (e + 1) := by
      rw [selects.counter, sinceImprovement_succ later, if_neg improves]
    simp only [epochStep, if_neg notAbove]
    split <;> exact ⟨best, written, counter⟩

/-- The loop breaks after an epoch exactly when it did not strictly improve and
the counter, one more than before, has reached the patience. -/
theorem epochStep_stop_iff (later : start ≤ e) (selects : Selects reports start e state) :
    (epochStep train patience reports e state).2 = true ↔
      ¬ Improves reports start e ∧ patience ≤ (sinceImprovement reports start (e + 1) : Int) := by
  by_cases improves : Improves reports start e
  · have above : state.bestOpcodeAcc < (reports e).opcodeAcc := selects.best ▸ improves
    simp [epochStep, above, improves]
  · have notAbove : ¬ state.bestOpcodeAcc < (reports e).opcodeAcc := selects.best ▸ improves
    simp only [epochStep, if_neg notAbove, sinceImprovement_succ later, if_neg improves,
      ← selects.counter, not_false_eq_true, true_and]
    split <;> simp_all

end Step

/-! ## Whole runs -/

section Run

variable (train : Nat -> W -> O -> W × O) (patience : Int) (reports : Nat -> EpochReport)

theorem runEpochs_eq_nil_iff (epoch count : Nat) (state : LoopState W O) :
    runEpochs train patience reports epoch count state = [] ↔ count = 0 := by
  cases count <;> simp [runEpochs]

/-- A run from a state in step with the rule at `epoch` stays in step after each
of its epochs, and ends after an epoch exactly when the count runs out or the
loop breaks there. -/
theorem runEpochs_selects (start count : Nat) :
    ∀ (epoch : Nat) (state : LoopState W O), start ≤ epoch -> Selects reports start epoch state ->
      ∀ i (ran : i < (runEpochs train patience reports epoch count state).length),
        Selects reports start (epoch + i + 1) (runEpochs train patience reports epoch count state)[i] ∧
        (i + 1 = (runEpochs train patience reports epoch count state).length ↔
          i + 1 = count ∨
            (¬ Improves reports start (epoch + i) ∧
              patience ≤ (sinceImprovement reports start (epoch + i + 1) : Int))) := by
  induction count with
  | zero => intro epoch state _ _ i ran; simp [runEpochs] at ran
  | succ count ih =>
      intro epoch state later selects i ran
      have stepSelects := selects_epochStep train patience later selects
      have stopIff := epochStep_stop_iff train patience later selects
      cases stopping : (epochStep train patience reports epoch state).2
      · simp only [runEpochs, stopping, Bool.false_eq_true, if_false, List.length_cons] at ran ⊢
        simp only [stopping, Bool.false_eq_true, false_iff] at stopIff
        cases i with
        | zero =>
            refine ⟨stepSelects, ?_⟩
            have empty := runEpochs_eq_nil_iff train patience reports (epoch + 1) count
              (epochStep train patience reports epoch state).1
            rw [← List.length_eq_zero] at empty
            simp only [Nat.add_zero, stopIff, or_false]
            omega
        | succ j =>
            have rest := ih (epoch + 1) _ (by omega) stepSelects j (by omega)
            have shift : epoch + (j + 1) = epoch + 1 + j := by omega
            rw [shift, List.getElem_cons_succ]
            refine ⟨rest.1, ?_⟩
            rw [Nat.add_right_cancel_iff, Nat.add_right_cancel_iff, rest.2]
      · simp only [runEpochs, stopping, if_true, List.length_singleton] at ran ⊢
        simp only [stopping, true_iff] at stopIff
        obtain rfl : i = 0 := by omega
        exact ⟨stepSelects, by simp [stopIff]⟩

theorem selects_initial (start : Nat) (model : W) (optimizer : O) :
    Selects reports start start (LoopState.initial model optimizer) := by
  refine ⟨?_, ?_, ?_⟩ <;>
    simp [LoopState.initial, bestBetween, sinceImprovement, epochsBetween]

/-- After a loop whose last state is `state`, `main` saves that state's weights
and writes its config, with `epochs_trained = start + len`. -/
theorem finish_of_getLast (start : Nat) (initial : LoopState W O) {states : List (LoopState W O)}
    {state : LoopState W O} (found : states.getLast? = some state) :
    (finish start initial states).finalModel = state.model ∧
      (finish start initial states).config =
        .ok ⟨state.bestOpcodeAcc, state.bestValLoss, start + states.length⟩ := by
  have lastState : states.getLastD initial = state := by
    rw [List.getLastD_eq_getLast?, found, Option.getD_some]
  obtain ⟨earlier, rfl⟩ := List.getLast?_eq_some_iff.mp found
  refine ⟨congrArg LoopState.model lastState, ?_⟩
  simp only [finish, lastState, List.length_append, List.length_singleton]
  rfl

end Run

/-- `main` from any checkpoint: the loop state stays in step with the selection
rule counted from the first loop index, the loop stops exactly at the budget or
at a break, and after the last epoch it has run `main` saves that epoch's
weights and writes its config. -/
theorem main_selects (train : Nat -> W -> O -> W × O) (patience epochs : Int)
    (reports : Nat -> EpochReport) (fresh : W) (freshOptimizer : O)
    (checkpoint : Option (LoadedCheckpoint W O)) (e : Nat)
    (ran : e < (main train patience epochs reports fresh freshOptimizer checkpoint).epochs.length) :
    let run := main train patience epochs reports fresh freshOptimizer checkpoint
    let start := (startOf fresh checkpoint).1
    Selects reports start (start + e + 1) run.epochs[e] ∧
      (e + 1 = run.epochs.length ↔
        ((start + e : Nat) : Int) = epochs - 1 ∨
          (¬ Improves reports start (start + e) ∧
            patience ≤ (run.epochs[e].patienceCounter : Int))) := by
  simp only [main_epochs] at ran ⊢
  obtain ⟨selects, stops⟩ := runEpochs_selects train patience reports _ _ _ _ le_rfl
    (selects_initial reports _ (startOf fresh checkpoint).2 freshOptimizer) e ran
  refine ⟨selects, ?_⟩
  have sameEnd : e + 1 = (epochs - (startOf fresh checkpoint).1).toNat ↔
      (((startOf fresh checkpoint).1 + e : Nat) : Int) = epochs - 1 := by
    omega
  rw [selects.counter, ← sameEnd]
  exact stops


/-- The epoch loop of a fresh run (`start_epoch = 0`).  After every epoch `e`
it has run, its state holds what `Selects` says of `max(0, a_0, ..., a_e)`, of
the epoch `best_model.pt` was last written at, and of `patience_counter`; and
the loop stops after `e` exactly when `e = E - 1`, or epoch `e` did not
strictly improve and the counter has reached the patience. -/
theorem freshRun_selects (train : Nat -> W -> O -> W × O) (patience epochs : Int)
    (reports : Nat -> EpochReport) (fresh : W) (freshOptimizer : O) :
    let states := (main train patience epochs reports fresh freshOptimizer none).epochs
    ∀ e (ran : e < states.length),
      Selects reports 0 (e + 1) states[e] ∧
        (e + 1 = states.length ↔
          (e : Int) = epochs - 1 ∨
            (¬ Improves reports 0 e ∧ patience ≤ (states[e].patienceCounter : Int))) := by
  intro states e ran
  have selects := main_selects train patience epochs reports fresh freshOptimizer none e ran
  simp only [startOf, Nat.zero_add] at selects
  exact selects

theorem freshRun_selects_witness :
    let states := (main (fun _ (model : Unit) (optimizer : Unit) => (model, optimizer)) 1 3
      (fun _ => ⟨1, 1⟩) () () none).epochs
    ∃ ran : 1 < states.length,
      Selects (fun _ => ⟨1, 1⟩) 0 2 states[1] ∧
        (2 = states.length ↔
          ((1 : Nat) : Int) = 3 - 1 ∨
            (¬ Improves (fun _ => ⟨1, 1⟩) 0 1 ∧ 1 ≤ (states[1].patienceCounter : Int))) :=
  ⟨by decide, freshRun_selects _ 1 3 _ () () 1 _⟩

/-- With patience 0 the first epoch improves and leaves the counter at 0, which
has reached the patience, and the loop still goes on to a second epoch. -/
theorem zeroPatience_continues :
    let states := (main (fun _ (model : Unit) (optimizer : Unit) => (model, optimizer)) 0 2
      (fun _ => ⟨1, 1⟩) () () none).epochs
    states.length = 2 ∧ states.head?.map LoopState.patienceCounter = some 0 :=
  ⟨rfl, rfl⟩

/-- `main` resumed from the enriched checkpoint of epoch `k` reads only its
weights and its `epoch`: the loop runs epochs `k, ..., E - 1` from a fresh
optimizer and scheduler, `best_opcode_acc = 0` and no patience spent, and
selects from `k` on as a fresh run does from 0.  When an epoch remains, `main`
saves the weights of the last epoch it ran and writes that epoch's config. -/
theorem resumedRun_restarts (train : Nat -> W -> O -> W × O) (patience epochs : Int)
    (reports : Nat -> EpochReport) (fresh : W) (freshOptimizer : O) (saved : Checkpoint W O) :
    let run := main train patience epochs reports fresh freshOptimizer (some (.enriched saved))
    run.epochs = runEpochs train patience reports saved.epoch (epochs - saved.epoch).toNat
        (LoopState.initial saved.modelState freshOptimizer) ∧
      (∀ e (ran : e < run.epochs.length),
        Selects reports saved.epoch (saved.epoch + e + 1) run.epochs[e] ∧
          (e + 1 = run.epochs.length ↔
            ((saved.epoch + e : Nat) : Int) = epochs - 1 ∨
              (¬ Improves reports saved.epoch (saved.epoch + e) ∧
                patience ≤ (run.epochs[e].patienceCounter : Int)))) ∧
      ((saved.epoch : Int) < epochs ->
        ∃ state, run.epochs.getLast? = some state ∧ run.finalModel = state.model ∧
          run.config = .ok ⟨state.bestOpcodeAcc, state.bestValLoss, saved.epoch + run.epochs.length⟩) := by
  intro run
  refine ⟨rfl, main_selects train patience epochs reports fresh freshOptimizer _, fun remaining => ?_⟩
  have ranSome : run.epochs ≠ [] := by
    show runEpochs train patience reports saved.epoch (epochs - saved.epoch).toNat
      (LoopState.initial saved.modelState freshOptimizer) ≠ []
    rw [Ne, runEpochs_eq_nil_iff]
    omega
  obtain ⟨state, found⟩ := Option.isSome_iff_exists.mp (List.getLast?_isSome.mpr ranSome)
  exact ⟨state, found, finish_of_getLast _ _ found⟩

theorem resumedRun_restarts_witness :
    let run := main (fun _ (model : Unit) (optimizer : Nat) => (model, optimizer + 1)) 10 3
      (fun _ => ⟨1, 1⟩) () 0 (some (.enriched ⟨1, (), 5, 1, 1⟩))
    (∃ ran : 0 < run.epochs.length,
      Selects (fun _ => ⟨1, 1⟩) 1 2 run.epochs[0] ∧
        (1 = run.epochs.length ↔
          ((1 : Nat) : Int) = 3 - 1 ∨
            (¬ Improves (fun _ => ⟨1, 1⟩) 1 1 ∧ 10 ≤ (run.epochs[0].patienceCounter : Int)))) ∧
      ((1 : Int) < 3 ∧
        ∃ state, run.epochs.getLast? = some state ∧ run.finalModel = state.model ∧
          run.config = .ok ⟨state.bestOpcodeAcc, state.bestValLoss, 1 + run.epochs.length⟩) :=
  ⟨⟨by decide, (resumedRun_restarts _ 10 3 _ () 0 ⟨1, (), 5, 1, 1⟩).2.1 0 _⟩,
    by decide, (resumedRun_restarts _ 10 3 _ () 0 ⟨1, (), 5, 1, 1⟩).2.2 (by decide)⟩

/-- A run with budget 2 writes the checkpoint of epoch 0 and trains one more
epoch; resumed from that checkpoint, `main` trains two epochs, epoch 0 again
among them. -/
theorem resume_repeats_saved_epoch :
    let train := fun (_ : Nat) (model : Unit) (optimizer : Nat) => (model, optimizer + 1)
    let reports : Nat -> EpochReport := fun _ => ⟨1, 1⟩
    let uninterrupted := (main train 10 2 reports () 0 none).epochs
    let resumed := (main train 10 2 reports () 0 (some (.enriched ⟨0, (), 1, 1, 1⟩))).epochs
    uninterrupted.head?.bind LoopState.bestModel = some ⟨0, (), 1, 1, 1⟩ ∧
      uninterrupted.length = 2 ∧ resumed.length = 2 :=
  ⟨rfl, rfl, rfl⟩

end Train
end Neurlang
