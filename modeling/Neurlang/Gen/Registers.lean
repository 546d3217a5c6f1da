import Mathlib.Data.Finset.Card

namespace Neurlang
namespace Gen

/-!
# `RegisterAllocator`

The diverse-pattern generator picks the registers of a pattern with a
`RegisterAllocator`.  Its constructor lists `r0` to `r30` without the avoided
registers and shuffles them; `alloc(name)` returns the register already given
to `name`, or the next one in the shuffled order, and starts the order again
from its first register once every register has been given out.

The shuffle is a random outcome: the allocator here carries the order it left
the registers in, with the proof that it is a permutation of the candidates.
The invariant `Fresh` says that the names seen so far hold the first registers
of that order, one each; every call keeps it while a register is left, so a
run that names no more distinct variables than there are registers gives
distinct names distinct registers.
-/

/-- `IndexError`, raised by `alloc` when the order is empty. -/
inductive GenError where
  | indexError
  deriving DecidableEq, Repr

/-- The registers the constructor keeps, in ascending order: `r0` to `r30`
without the avoided ones, `r31` being the zero register. -/
def candidates (avoid : List Int) : List Nat :=
  (List.range 32).filter fun reg => decide ((reg : Int) ∉ avoid) && reg != 31

/-- A `RegisterAllocator` after its constructor ran: `available` is the order
`random.shuffle` left the candidates in, and `allocated` the dict from names to
registers, in insertion order. -/
structure RegisterAllocator where
  avoid : List Int
  available : List Nat
  shuffled : available.Perm (candidates avoid)
  allocated : List (String × Nat)
  nextIdx : Nat

namespace RegisterAllocator

/-- `RegisterAllocator(avoid_regs)`, with `order` the outcome of the shuffle. -/
def init (avoid : List Int) (order : List Nat) (shuffled : order.Perm (candidates avoid)) :
    RegisterAllocator :=
  ⟨avoid, order, shuffled, [], 0⟩

/-- `alloc(name)`. -/
def alloc (s : RegisterAllocator) (name : String) : Except GenError (Nat × RegisterAllocator) :=
  match s.allocated.lookup name with
  | some reg => .ok (reg, s)
  | none =>
      let nextIdx := if s.nextIdx ≥ s.available.length then 0 else s.nextIdx
      match s.available[nextIdx]? with
      | some reg => .ok (reg, { s with allocated := s.allocated ++ [(name, reg)], nextIdx := nextIdx + 1 })
      | none => .error .indexError

/-- `get(name)`: the register of `name`, `0` when it has none. -/
def get (s : RegisterAllocator) (name : String) : Nat :=
  (s.allocated.lookup name).getD 0

/-- `alloc` called on each name in turn: the registers it returns and the
allocator after the last call. -/
def allocAll : RegisterAllocator -> List String -> Except GenError (List Nat × RegisterAllocator)
  | s, [] => .ok ([], s)
  | s, name :: rest => do
      let (reg, s) ← s.alloc name
      let (regs, s) ← allocAll s rest
      pure (reg :: regs, s)

/-- The names seen so far hold the first `nextIdx` registers of the order, one
each. -/
structure Fresh (s : RegisterAllocator) : Prop where
  registers : s.allocated.map Prod.snd = s.available.take s.nextIdx
  names : (s.allocated.map Prod.fst).Nodup
  within : s.nextIdx ≤ s.available.length

theorem mem_candidates {avoid : List Int} {reg : Nat} :
    reg ∈ candidates avoid ↔ reg < 31 ∧ (reg : Int) ∉ avoid := by
  simp only [candidates, List.mem_filter, List.mem_range, Bool.and_eq_true, decide_eq_true_eq, bne_iff_ne]
  constructor
  · rintro ⟨below, kept, top⟩
    exact ⟨by omega, kept⟩
  · rintro ⟨below, kept⟩
    exact ⟨by omega, kept, by omega⟩

theorem nodup_candidates (avoid : List Int) : (candidates avoid).Nodup :=
  (List.nodup_range 32).filter _

theorem nodup_available (s : RegisterAllocator) : s.available.Nodup :=
  s.shuffled.nodup_iff.mpr (nodup_candidates s.avoid)

theorem init_fresh (avoid : List Int) (order : List Nat) (shuffled : order.Perm (candidates avoid)) :
    Fresh (init avoid order shuffled) :=
  ⟨rfl, List.nodup_nil, Nat.zero_le _⟩

theorem lookup_mem {allocated : List (String × Nat)} {name : String} {reg : Nat}
    (found : allocated.lookup name = some reg) : (name, reg) ∈ allocated := by
  obtain ⟨front, back, rfl, -⟩ := List.lookup_eq_some_iff.mp found
  simp

section Step

variable {s : RegisterAllocator} {name : String}

theorem Fresh.length_allocated (fresh : Fresh s) : s.allocated.length = s.nextIdx := by
  have lengths := congrArg List.length fresh.registers
  simp only [List.length_map, List.length_take] at lengths
  have := fresh.within
  omega

/-- A name seen before gets its register back and changes nothing. -/
theorem alloc_known {reg : Nat} (known : s.allocated.lookup name = some reg) : s.alloc name = .ok (reg, s) := by
  simp only [alloc, known]

/-- A new name gets the next register of the order while one is left. -/
theorem alloc_new (unseen : s.allocated.lookup name = none) (room : s.nextIdx < s.available.length) :
    s.alloc name = .ok (s.available[s.nextIdx],
      { s with allocated := s.allocated ++ [(name, s.available[s.nextIdx])], nextIdx := s.nextIdx + 1 }) := by
  simp only [alloc, unseen, ge_iff_le, if_neg (Nat.not_le.mpr room), List.getElem?_eq_getElem room]

/-- While the order is not empty, `alloc` returns and keeps the order. -/
theorem alloc_ok (nonempty : s.available ≠ []) :
    ∃ reg s', s.alloc name = .ok (reg, s') ∧ s'.available = s.available := by
  cases seen : s.allocated.lookup name with
  | some reg => exact ⟨reg, s, alloc_known seen, rfl⟩
  | none =>
      have inRange : (if s.nextIdx ≥ s.available.length then 0 else s.nextIdx) < s.available.length := by
        have := List.length_pos.mpr nonempty
        split_ifs <;> omega
      simp only [alloc, seen, List.getElem?_eq_getElem inRange]
      exact ⟨_, _, rfl, rfl⟩

/-- The first call on a new allocator takes the first register of the shuffle. -/
theorem alloc_init (avoid : List Int) (reg : Nat) (rest : List Nat)
    (shuffled : (reg :: rest).Perm (candidates avoid)) (name : String) :
    (init avoid (reg :: rest) shuffled).alloc name = .ok (reg, ⟨avoid, reg :: rest, shuffled, [(name, reg)], 1⟩) := by
  simp [init, alloc]

theorem Fresh.alloc_new (fresh : Fresh s) (unseen : s.allocated.lookup name = none)
    (room : s.nextIdx < s.available.length) :
    Fresh { s with allocated := s.allocated ++ [(name, s.available[s.nextIdx])], nextIdx := s.nextIdx + 1 } := by
  refine ⟨?_, ?_, room⟩
  · simp only [List.map_append, List.map_cons, List.map_nil, fresh.registers, List.take_succ,
      List.getElem?_eq_getElem room, Option.toList_some]
  · simp only [List.map_append, List.map_cons, List.map_nil, List.nodup_append, fresh.names,
      List.nodup_singleton, List.disjoint_singleton, true_and]
    intro member
    obtain ⟨⟨key, reg⟩, entry, rfl⟩ := List.mem_map.mp member
    simpa using List.lookup_eq_none_iff.mp unseen _ entry

end Step

/-- A run from an allocator in step with its order, over names of which, with
the names it has seen, no more are distinct than it has registers: every call
returns, each name's register is the one the final allocator holds for it, and
the allocator only grows. -/
theorem allocAll_spec (s : RegisterAllocator) (fresh : Fresh s) (names : List String)
    (few : (s.allocated.map Prod.fst ++ names).toFinset.card ≤ s.available.length) :
    ∃ regs final, s.allocAll names = .ok (regs, final) ∧ Fresh final ∧ final.avoid = s.avoid ∧
      (∃ added, final.allocated = s.allocated ++ added) ∧
      (∀ name ∈ names, ∃ reg, final.allocated.lookup name = some reg) ∧
      regs = names.map final.get := by
  induction names generalizing s with
  | nil => exact ⟨[], s, rfl, fresh, rfl, ⟨[], by simp⟩, by simp, rfl⟩
  | cons name rest ih =>
      cases seen : s.allocated.lookup name with
      | some reg =>
          have fewer : (s.allocated.map Prod.fst ++ rest).toFinset.card ≤ s.available.length :=
            (Finset.card_le_card (by intro x; simp only [List.mem_toFinset, List.mem_append, List.mem_cons]; tauto)).trans few
          obtain ⟨regs, final, run, freshFinal, avoided, ⟨added, grows⟩, found, named⟩ := ih s fresh fewer
          have kept : final.allocated.lookup name = some reg := by
            rw [grows, List.lookup_append, seen]
            rfl
          refine ⟨reg :: regs, final, ?_, freshFinal, avoided, ⟨added, grows⟩, ?_, ?_⟩
          · simp only [allocAll, alloc_known seen, bind, Except.bind, run]
            rfl
          · simp only [List.mem_cons, forall_eq_or_imp]
            exact ⟨⟨reg, kept⟩, found⟩
          · simp only [List.map_cons, named, get, kept, Option.getD_some]
      | none =>
          have notKey : name ∉ s.allocated.map Prod.fst := by
            intro member
            obtain ⟨⟨key, reg⟩, entry, rfl⟩ := List.mem_map.mp member
            simpa using List.lookup_eq_none_iff.mp seen _ entry
          have room : s.nextIdx < s.available.length := by
            have sub : insert name (s.allocated.map Prod.fst).toFinset ⊆
                (s.allocated.map Prod.fst ++ name :: rest).toFinset := by
              intro x
              simp only [Finset.mem_insert, List.mem_toFinset, List.mem_append, List.mem_cons]
              tauto
            have grow := Finset.card_le_card sub
            rw [Finset.card_insert_of_not_mem (by simpa using notKey), List.toFinset_card_of_nodup fresh.names,
              List.length_map, fresh.length_allocated] at grow
            omega
          obtain ⟨regs, final, run, freshFinal, avoided, ⟨added, grows⟩, found, named⟩ :=
            ih _ (fresh.alloc_new seen room) (by simpa only [List.map_append, List.map_cons, List.map_nil,
              List.append_assoc, List.singleton_append] using few)
          have kept : final.allocated.lookup name = some s.available[s.nextIdx] := by
            rw [grows, List.lookup_append, List.lookup_append, seen]
            simp
          refine ⟨s.available[s.nextIdx] :: regs, final, ?_, freshFinal, avoided,
            ⟨(name, s.available[s.nextIdx]) :: added, by rw [grows, List.append_assoc, List.singleton_append]⟩, ?_, ?_⟩
          · simp only [allocAll, alloc_new seen room, bind, Except.bind, run]
            rfl
          · simp only [List.mem_cons, forall_eq_or_imp]
            exact ⟨⟨_, kept⟩, found⟩
          · simp only [List.map_cons, named, get, kept, Option.getD_some]

/-- In step with its order, the allocator gives distinct names distinct
registers, all from the order. -/
theorem Fresh.get_injOn {s : RegisterAllocator} (fresh : Fresh s) {a b : String} {ra rb : Nat}
    (foundA : s.allocated.lookup a = some ra) (foundB : s.allocated.lookup b = some rb) (same : ra = rb) :
    a = b := by
  have distinct : (s.allocated.map Prod.snd).Nodup := by
    rw [fresh.registers]
    exact (nodup_available s).sublist (List.take_sublist _ _)
  subst same
  have := List.inj_on_of_nodup_map distinct (lookup_mem foundA) (lookup_mem foundB) rfl
  simpa using this

theorem Fresh.mem_available {s : RegisterAllocator} (fresh : Fresh s) {name : String} {reg : Nat}
    (found : s.allocated.lookup name = some reg) : reg ∈ s.available := by
  have member : reg ∈ s.allocated.map Prod.snd := List.mem_map_of_mem _ (lookup_mem found)
  rw [fresh.registers] at member
  exact List.mem_of_mem_take member

/-- Take any avoid list, any outcome of the shuffle, and any sequence of
`alloc` calls naming no more distinct names than there are usable registers:
every call returns, a repeated name gets its register again, distinct names get
distinct registers, and no register is `r31` or avoided. -/
theorem allocAll_distinct (avoid : List Int) (order : List Nat) (shuffled : order.Perm (candidates avoid))
    (names : List String) (few : names.toFinset.card ≤ (candidates avoid).length) :
    ∃ regs final, (init avoid order shuffled).allocAll names = .ok (regs, final) ∧
      ∃ assign : String -> Nat, regs = names.map assign ∧
        (∀ a ∈ names, ∀ b ∈ names, assign a = assign b -> a = b) ∧
        ∀ reg ∈ regs, reg ≠ 31 ∧ (reg : Int) ∉ avoid := by
  obtain ⟨regs, final, run, fresh, avoided, -, found, named⟩ :=
    allocAll_spec (init avoid order shuffled) (init_fresh avoid order shuffled) names
      (by simpa [init, shuffled.length_eq] using few)
  refine ⟨regs, final, run, final.get, named, fun a memberA b memberB same => ?_, fun reg member => ?_⟩
  · obtain ⟨ra, foundA⟩ := found a memberA
    obtain ⟨rb, foundB⟩ := found b memberB
    exact fresh.get_injOn foundA foundB (by simpa [get, foundA, foundB] using same)
  · rw [named] at member
    obtain ⟨name, memberName, rfl⟩ := List.mem_map.mp member
    obtain ⟨reg, foundName⟩ := found name memberName
    have kept := mem_candidates.mp (final.shuffled.subset (fresh.mem_available foundName))
    rw [avoided] at kept
    simp only [get, foundName, Option.getD_some]
    exact ⟨by omega, kept.2⟩

theorem allocAll_distinct_avoiding_r0 :
    ["x", "y", "x"].toFinset.card ≤ (candidates [0]).length ∧
      ∃ regs final, (init [0] (candidates [0]) (List.Perm.refl _)).allocAll ["x", "y", "x"] = .ok (regs, final) ∧
        ∃ assign : String -> Nat, regs = ["x", "y", "x"].map assign ∧
          (∀ a ∈ ["x", "y", "x"], ∀ b ∈ ["x", "y", "x"], assign a = assign b -> a = b) ∧
          ∀ reg ∈ regs, reg ≠ 31 ∧ (reg : Int) ∉ [0] :=
  have few : ["x", "y", "x"].toFinset.card ≤ (candidates [0]).length := by decide
  ⟨few, allocAll_distinct [0] (candidates [0]) (List.Perm.refl _) ["x", "y", "x"] few⟩

/-! ## Runs of any length -/

/-- The distinct names of a list, in the order they first occur. -/
def firstOccurrences (names : List String) : List String :=
  names.reverse.dedup.reverse

@[simp] theorem firstOccurrences_nil : firstOccurrences [] = [] := rfl

theorem firstOccurrences_append (names : List String) (name : String) :
    firstOccurrences (names ++ [name]) =
      if name ∈ names then firstOccurrences names else firstOccurrences names ++ [name] := by
  unfold firstOccurrences
  rw [List.reverse_append, List.reverse_singleton, List.singleton_append]
  split_ifs with seen
  · rw [List.dedup_cons_of_mem (List.mem_reverse.mpr seen)]
  · rw [List.dedup_cons_of_not_mem (by simpa using seen), List.reverse_cons]

/-- What `alloc` keeps over a run from the constructor once the names `read`
were asked for: the dict holds the distinct names in the order they first
occur, the `k`-th of them register `k % n` of the order, and the cursor stands
where the next new name will be served. -/
structure Cyclic (read : List String) (s : RegisterAllocator) : Prop where
  keys : s.allocated.map Prod.fst = firstOccurrences read
  registers : ∀ k (lt : k < s.allocated.length),
    s.allocated[k].2 = s.available.getD (k % s.available.length) 0
  cursor_le : s.nextIdx ≤ s.available.length
  cursor : s.nextIdx % s.available.length = s.allocated.length % s.available.length

theorem init_cyclic (avoid : List Int) (order : List Nat) (shuffled : order.Perm (candidates avoid)) :
    Cyclic [] (init avoid order shuffled) :=
  ⟨rfl, fun _ lt => absurd lt (Nat.not_lt_zero _), Nat.zero_le _, rfl⟩

section Cycle

variable {read : List String} {s : RegisterAllocator}

theorem Cyclic.mem_keys (cyclic : Cyclic read s) {name : String} :
    name ∈ s.allocated.map Prod.fst ↔ name ∈ read := by
  rw [cyclic.keys, firstOccurrences, List.mem_reverse, List.mem_dedup, List.mem_reverse]

/-- One call on any name: it returns the register the dict then holds for the
name, and the invariant moves on to the longer run. -/
theorem Cyclic.alloc (cyclic : Cyclic read s) (nonempty : s.available ≠ []) (name : String) :
    ∃ reg s', s.alloc name = .ok (reg, s') ∧ s'.allocated.lookup name = some reg ∧
      Cyclic (read ++ [name]) s' ∧ s'.available = s.available ∧ ∃ added, s'.allocated = s.allocated ++ added := by
  have pos := List.length_pos.mpr nonempty
  cases seen : s.allocated.lookup name with
  | some reg =>
      have known : name ∈ read := cyclic.mem_keys.mp (List.mem_map_of_mem Prod.fst (lookup_mem seen))
      refine ⟨reg, s, alloc_known seen, seen, ?_, rfl, [], by simp⟩
      exact { cyclic with keys := by rw [cyclic.keys, firstOccurrences_append, if_pos known] }
  | none =>
      have unknown : name ∉ read := fun known => by
        obtain ⟨⟨key, reg⟩, entry, rfl⟩ := List.mem_map.mp (cyclic.mem_keys.mpr known)
        simpa using List.lookup_eq_none_iff.mp seen _ entry
      have served : (if s.nextIdx ≥ s.available.length then 0 else s.nextIdx) =
          s.allocated.length % s.available.length := by
        rw [← cyclic.cursor]
        have := cyclic.cursor_le
        split_ifs with wrapped
        · rw [show s.nextIdx = s.available.length by omega, Nat.mod_self]
        · rw [Nat.mod_eq_of_lt (by omega)]
      have inRange : s.allocated.length % s.available.length < s.available.length := Nat.mod_lt _ pos
      simp only [RegisterAllocator.alloc, seen, served, List.getElem?_eq_getElem inRange]
      refine ⟨_, _, rfl, by simp [List.lookup_append, seen], ⟨?_, ?_, inRange, ?_⟩, rfl, _, rfl⟩
      · simp [cyclic.keys, firstOccurrences_append, unknown]
      · intro k lt
        simp only [List.length_append, List.length_singleton] at lt
        rcases Nat.lt_succ_iff_lt_or_eq.mp lt with old | new
        · rw [List.getElem_append_left old, cyclic.registers k old]
        · subst new
          rw [List.getElem_append_right (Nat.le_refl _)]
          simp [List.getElem?_eq_getElem inRange]
      · simp only [List.length_append, List.length_singleton]
        rw [Nat.add_mod (s.allocated.length % _), Nat.mod_mod, ← Nat.add_mod]

/-- Any run from an allocator that keeps the invariant: every call returns,
each the register the final dict holds for its name. -/
theorem Cyclic.allocAll (cyclic : Cyclic read s) (nonempty : s.available ≠ []) (names : List String) :
    ∃ regs final, s.allocAll names = .ok (regs, final) ∧ Cyclic (read ++ names) final ∧
      final.available = s.available ∧ (∃ added, final.allocated = s.allocated ++ added) ∧
      regs = names.map final.get := by
  induction names generalizing read s with
  | nil => exact ⟨[], s, rfl, by simpa using cyclic, rfl, ⟨[], by simp⟩, rfl⟩
  | cons name rest ih =>
      obtain ⟨reg, next, stepped, found, cyclicNext, sameOrder, added, grows⟩ := cyclic.alloc nonempty name
      obtain ⟨regs, final, run, cyclicFinal, finalOrder, ⟨more, growsMore⟩, named⟩ :=
        ih cyclicNext (sameOrder ▸ nonempty)
      have kept : final.get name = reg := by
        simp [get, growsMore, List.lookup_append, found]
      refine ⟨reg :: regs, final, ?_, by simpa using cyclicFinal, finalOrder.trans sameOrder,
        ⟨added ++ more, by rw [growsMore, grows, List.append_assoc]⟩, by rw [List.map_cons, kept, named]⟩
      simp only [RegisterAllocator.allocAll, stepped, bind, Except.bind, run]
      rfl

end Cycle

/-- Take any avoid list that leaves a register, any outcome of the shuffle and
any sequence of `alloc` calls, however many distinct names it asks for: every
call returns the register the dict holds for its name, and the dict holds the
distinct names in the order they first occur, the `k`-th of them register
`available[k % n]` for the `n` registers of the shuffle.  Past `n` distinct
names the order starts again from its first register, so the `k`-th and the
`(k + n)`-th distinct names share one. -/
theorem allocAll_cyclic (avoid : List Int) (order : List Nat) (shuffled : order.Perm (candidates avoid))
    (nonempty : order ≠ []) (names : List String) :
    ∃ regs final, (init avoid order shuffled).allocAll names = .ok (regs, final) ∧
      regs = names.map final.get ∧ final.allocated.map Prod.fst = firstOccurrences names ∧
      ∀ k (lt : k < final.allocated.length), final.allocated[k].2 = order.getD (k % order.length) 0 := by
  obtain ⟨regs, final, run, cyclic, sameOrder, -, named⟩ := (init_cyclic avoid order shuffled).allocAll nonempty names
  refine ⟨regs, final, run, named, by simpa using cyclic.keys, fun k lt => ?_⟩
  rw [cyclic.registers k lt, sameOrder]
  rfl

/-- With `r0` the only register left, two distinct names share it. -/
theorem allocAll_cyclic_one_register :
    let avoid : List Int := [1, 2, 3, 4, 5, 6, 7, 8, 9, 10, 11, 12, 13, 14, 15, 16, 17, 18, 19, 20, 21, 22, 23,
      24, 25, 26, 27, 28, 29, 30]
    ∃ shuffled : [0].Perm (candidates avoid), [0] ≠ [] ∧
      ∃ regs final, (init avoid [0] shuffled).allocAll ["x", "y"] = .ok (regs, final) ∧
        regs = ["x", "y"].map final.get ∧ final.allocated.map Prod.fst = firstOccurrences ["x", "y"] ∧
        ∀ k (lt : k < final.allocated.length), final.allocated[k].2 = [0].getD (k % [0].length) 0 := by
  intro avoid
  have shuffled : [0].Perm (candidates avoid) := by decide
  exact ⟨shuffled, List.cons_ne_nil _ _, allocAll_cyclic avoid [0] shuffled (List.cons_ne_nil _ _) ["x", "y"]⟩

end RegisterAllocator

end Gen
end Neurlang
