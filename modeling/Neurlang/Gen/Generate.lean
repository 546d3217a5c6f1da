import Mathlib

namespace Neurlang
namespace Gen

/-!
# `DiversePatternGenerator.generate`: the weighted draw

`generate` multiplies `random.random()` by the total weight and walks the
table of `(weight, method)` pairs, adding up the weights, until the running
sum reaches the product; the method there is called.  If the loop runs through,
the last method is called.  The weights are those of the table in `__init__`.

`random.random()` returns `k / 2^53` for a `k < 2^53` drawn uniformly, and its
product with the integer total is a double: `k * total` rounded to 53
significant bits, to nearest with ties to even, over `2^53`.  Python compares
that float with the integer running sum exactly.

The result: every draw stops the loop, at the entry whose interval of running
sums holds the rounded product.  For a total between `2^10` and `2^11` (the
table's is 1890), the rounding moves the product by at most `2^10 / 2^53`, and
of the `2^53` draws the number that call entry `i` is within 3 of
`w_i * 2^53 / total`: each method is called with probability its weight over
the total, up to `3 / 2^53`.
-/

namespace DiversePatternGenerator

/-- The weights of `self.generators`, in the table's order, from
`gen_arithmetic_diverse` to `gen_string_compare`. -/
def weights : List Nat :=
  [100, 80, 60, 80, 60, 40, 50, 70, 50, 40, 40, 30, 60, 50, 40, 30, 40, 50, 40, 30, 30, 40,
    40, 40, 30, 30, 30, 20, 50, 40, 30, 30, 20, 40, 30, 30, 60, 40, 50, 40, 30, 40, 30, 30]

/-- `self.total_weight`. -/
def totalWeight (weights : List Nat) : Nat := weights.sum

/-! ## The float product -/

/-- The bits a product `m` loses when rounded to the 53 significant bits of a
double: none below `2^53`. -/
def droppedBits (m : Nat) : Nat := m.log2 + 1 - 53

/-- `m` rounded to 53 significant bits, to nearest with ties to even, as the
multiplication of two doubles rounds. -/
def roundDouble (m : Nat) : Nat :=
  let unit := 2 ^ droppedBits m
  (if unit / 2 < m % unit ∨ (1 < unit ∧ m % unit = unit / 2 ∧ m / unit % 2 = 1) then m / unit + 1
    else m / unit) * unit

/-- `random.random() * self.total_weight` for `random.random()` returning
`k / 2^53`. -/
def scaledDraw (k total : Nat) : ℚ := (roundDouble (k * total) : ℚ) / 2 ^ 53

theorem droppedBits_le {m : Nat} (small : m < 2 ^ 64) : droppedBits m ≤ 11 := by
  unfold droppedBits
  rcases Nat.eq_zero_or_pos m with rfl | pos
  · simp [Nat.log2_zero]
  · have := (Nat.log2_lt pos.ne').mpr small
    omega

/-- A multiple of `2^53` is a multiple of the unit a product below `2^64`
rounds to. -/
theorem unit_dvd {m : Nat} (small : m < 2 ^ 64) (c : Nat) : 2 ^ droppedBits m ∣ c * 2 ^ 53 :=
  Dvd.dvd.mul_left (Nat.pow_dvd_pow 2 (by have := droppedBits_le small; omega)) c

/-- A product at most a multiple `B` of its unit rounds to at most `B`. -/
theorem roundDouble_le {m B : Nat} (le : m ≤ B) (dvd : 2 ^ droppedBits m ∣ B) : roundDouble m ≤ B := by
  obtain ⟨b, rfl⟩ := dvd
  have unit := Nat.two_pow_pos (droppedBits m)
  dsimp only [roundDouble]
  generalize 2 ^ droppedBits m = u at *
  have split := Nat.div_add_mod m u
  have quot : m / u ≤ b := Nat.div_le_of_le_mul le
  split_ifs with up
  · rcases Nat.lt_or_ge (m / u) b with less | more
    · exact (Nat.mul_le_mul_right u less).trans_eq (mul_comm b u)
    · rw [le_antisymm quot more] at split
      omega
  · exact (Nat.mul_le_mul_right u quot).trans_eq (mul_comm b u)

/-- A product that rounds to at most a multiple `B` of its unit is at most
half a unit above `B`. -/
theorem le_of_roundDouble_le {m B : Nat} (le : roundDouble m ≤ B) (dvd : 2 ^ droppedBits m ∣ B) :
    m ≤ B + 2 ^ droppedBits m / 2 := by
  obtain ⟨b, rfl⟩ := dvd
  have unit := Nat.two_pow_pos (droppedBits m)
  dsimp only [roundDouble] at le
  generalize 2 ^ droppedBits m = u at *
  have split := Nat.div_add_mod m u
  have rem := Nat.mod_lt m unit
  split_ifs at le with up
  · have quot : m / u + 1 ≤ b := Nat.le_of_mul_le_mul_left (by rwa [mul_comm] at le) unit
    have := Nat.mul_le_mul_left u quot
    rw [Nat.mul_add, mul_one] at this
    omega
  · have quot : m / u ≤ b := Nat.le_of_mul_le_mul_left (by rwa [mul_comm] at le) unit
    have := Nat.mul_le_mul_left u quot
    omega

theorem natCast_lt_scaled {bound rounded : Nat} :
    (bound : ℚ) < (rounded : ℚ) / 2 ^ 53 ↔ bound * 2 ^ 53 < rounded := by
  rw [lt_div_iff₀ (by positivity)]
  exact_mod_cast Iff.rfl

theorem scaled_le_natCast {bound rounded : Nat} :
    (rounded : ℚ) / 2 ^ 53 ≤ bound ↔ rounded ≤ bound * 2 ^ 53 := by
  rw [div_le_iff₀ (by positivity)]
  exact_mod_cast Iff.rfl

section Draw

variable {α : Type} [LinearOrderedField α]

/-- The loop of `generate` from entry `index` on, `cumsum` the weights before
it: the first entry at which the running sum of the weights reaches `r`. -/
def pick (r : α) : Nat -> α -> List Nat -> Option Nat
  | _, _, [] => none
  | index, cumsum, weight :: rest =>
      if r ≤ cumsum + weight then some index else pick r (index + 1) (cumsum + weight) rest

theorem le_of_pick {r : α} {index : Nat} {cumsum : α} {weights : List Nat} {j : Nat}
    (picked : pick r index cumsum weights = some j) : index ≤ j := by
  induction weights generalizing index cumsum with
  | nil => cases picked
  | cons weight rest ih =>
      rw [pick] at picked
      split_ifs at picked
      · cases picked
        exact le_rfl
      · exact Nat.le_of_succ_le (ih picked)

/-- The loop stops at entry `i` exactly when `r` lies above the running sum
before it (or `i` is the first entry) and at most the running sum through it. -/
theorem pick_eq_some_iff (r : α) (weights : List Nat) (index : Nat) (cumsum : α) (i : Nat) :
    pick r index cumsum weights = some (index + i) ↔ i < weights.length ∧
      (i = 0 ∨ cumsum + ((weights.take i).sum : α) < r) ∧ r ≤ cumsum + ((weights.take (i + 1)).sum : α) := by
  induction weights generalizing index cumsum i with
  | nil => simp [pick]
  | cons weight rest ih =>
      rw [pick]
      split_ifs with reached
      · cases i with
        | zero => simpa using reached
        | succ i =>
            have : (0 : α) ≤ ((rest.take i).sum : α) := Nat.cast_nonneg _
            simp only [Option.some.injEq, List.length_cons, List.take_succ_cons, List.sum_cons, Nat.cast_add]
            constructor
            · intro same
              omega
            · rintro ⟨-, (done | above), -⟩
              · cases done
              · exact absurd reached (not_le.mpr (by linarith))
      · cases i with
        | zero =>
            simp only [add_zero, List.take_succ_cons, List.take_zero, List.sum_cons, List.sum_nil, Nat.cast_add,
              Nat.cast_zero]
            constructor
            · intro found
              have := le_of_pick found
              omega
            · rintro ⟨-, -, within⟩
              exact absurd within reached
        | succ i =>
            rw [show index + (i + 1) = (index + 1) + i by omega, ih]
            simp only [List.length_cons, List.take_succ_cons, List.sum_cons, Nat.cast_add, ← add_assoc,
              Nat.add_lt_add_iff_right, Nat.succ_ne_zero, false_or]
            have above : cumsum + (weight : α) < r := not_le.mp reached
            constructor
            · rintro ⟨length, (rfl | above'), within⟩
              · exact ⟨length, by simpa using above, within⟩
              · exact ⟨length, above', within⟩
            · rintro ⟨length, above', within⟩
              exact ⟨length, .inr above', within⟩

theorem pick_isSome (r : α) (weight : Nat) (rest : List Nat) :
    ∀ (index : Nat) (cumsum : α), r ≤ cumsum + ((weight :: rest).sum : α) -> (pick r index cumsum (weight :: rest)).isSome := by
  induction rest generalizing weight with
  | nil =>
      intro index cumsum within
      simp only [List.sum_cons, List.sum_nil, add_zero] at within
      simp [pick, within]
  | cons next rest ih =>
      intro index cumsum within
      rw [pick]
      split_ifs with reached
      · rfl
      · refine ih next (index + 1) (cumsum + weight) ?_
        simp only [List.sum_cons, Nat.cast_add] at within ⊢
        linarith

end Draw

/-- `generate()` for `random.random()` returning `k / 2^53`: the entry of
`self.generators` whose method it calls, the one the loop stops at or, when the
loop runs through, the last (`none`: the table is empty and `[-1]` raises). -/
def generate (weights : List Nat) (k : Nat) : Option Nat :=
  match pick (scaledDraw k (totalWeight weights)) 0 0 weights with
  | some index => some index
  | none => if weights = [] then none else some (weights.length - 1)

/-- For every draw and a total of at most `2^11`, the loop always stops, so
`generate` never reaches its fallback: it picks entry `i` exactly when the
rounded product lies above the weights before it (or `i = 0`) and at most the
weights through it. -/
theorem generate_eq_some_iff (weights : List Nat) (small : totalWeight weights ≤ 2 ^ 11) {k : Nat}
    (draw : k < 2 ^ 53) (i : Nat) :
    generate weights k = some i ↔ i < weights.length ∧
      (i = 0 ∨ (weights.take i).sum * 2 ^ 53 < roundDouble (k * totalWeight weights)) ∧
      roundDouble (k * totalWeight weights) ≤ (weights.take (i + 1)).sum * 2 ^ 53 := by
  cases weights with
  | nil => simp [generate, pick]
  | cons weight rest =>
      have fits : k * totalWeight (weight :: rest) < 2 ^ 64 :=
        (Nat.mul_le_mul_left k small).trans_lt (by omega)
      have within : roundDouble (k * totalWeight (weight :: rest)) ≤ totalWeight (weight :: rest) * 2 ^ 53 :=
        roundDouble_le ((Nat.mul_le_mul_right _ draw.le).trans_eq (mul_comm _ _)) (unit_dvd fits _)
      have stops := pick_isSome (scaledDraw k (totalWeight (weight :: rest))) weight rest 0 0
        (by rw [zero_add]; exact scaled_le_natCast.mpr within)
      obtain ⟨j, picked⟩ := Option.isSome_iff_exists.mp stops
      have loop := pick_eq_some_iff (scaledDraw k (totalWeight (weight :: rest))) (weight :: rest) 0 0 i
      rw [picked] at loop
      simp only [zero_add, scaledDraw, natCast_lt_scaled, scaled_le_natCast] at loop
      rw [generate, picked]
      exact loop

/-! ## How often each entry is called -/

/-- The draws `k < 2^53` for which `generate` calls entry `i`. -/
def drawsCalling (weights : List Nat) (i : Nat) : Finset Nat :=
  (Finset.range (2 ^ 53)).filter fun k => generate weights k = some i

/-- The draws whose rounded product is at most `bound`. -/
def drawsBelow (total bound : Nat) : Finset Nat :=
  (Finset.range (2 ^ 53)).filter fun k => roundDouble (k * total) ≤ bound

theorem card_filter_mul_le (count total bound : Nat) (pos : 0 < total) :
    ((Finset.range count).filter fun k => k * total ≤ bound).card = min count (bound / total + 1) := by
  have same : (Finset.range count).filter (fun k => k * total ≤ bound) =
      Finset.range (min count (bound / total + 1)) := by
    ext k
    simp only [Finset.mem_filter, Finset.mem_range, ← Nat.le_div_iff_mul_le pos]
    omega
  rw [same, Finset.card_range]

/-- Below a multiple of `2^53` lie at least the draws whose exact product lies
below it, and at most those within `2^10` above it. -/
theorem card_drawsBelow {total : Nat} (large : 2 ^ 10 ≤ total) (small : total ≤ 2 ^ 11) {c : Nat}
    (within : c ≤ total) :
    c * 2 ^ 53 / total ≤ (drawsBelow total (c * 2 ^ 53)).card ∧
      (drawsBelow total (c * 2 ^ 53)).card ≤ c * 2 ^ 53 / total + 2 := by
  have pos : 0 < total := by omega
  have fits : ∀ k < 2 ^ 53, k * total < 2 ^ 64 := fun k below =>
    (Nat.mul_le_mul_left k small).trans_lt (by omega)
  have lower : ((Finset.range (2 ^ 53)).filter fun k => k * total ≤ c * 2 ^ 53) ⊆
      drawsBelow total (c * 2 ^ 53) := by
    intro k member
    simp only [drawsBelow, Finset.mem_filter, Finset.mem_range] at member ⊢
    exact ⟨member.1, roundDouble_le member.2 (unit_dvd (fits k member.1) c)⟩
  have upper : drawsBelow total (c * 2 ^ 53) ⊆
      (Finset.range (2 ^ 53)).filter fun k => k * total ≤ c * 2 ^ 53 + 2 ^ 10 := by
    intro k member
    simp only [drawsBelow, Finset.mem_filter, Finset.mem_range] at member ⊢
    have near := le_of_roundDouble_le member.2 (unit_dvd (fits k member.1) c)
    have half : 2 ^ droppedBits (k * total) ≤ 2 ^ 11 :=
      Nat.pow_le_pow_right (by norm_num) (droppedBits_le (fits k member.1))
    exact ⟨member.1, by omega⟩
  have most : c * 2 ^ 53 / total ≤ 2 ^ 53 :=
    Nat.div_le_of_le_mul (Nat.mul_le_mul_right _ within)
  have step : (c * 2 ^ 53 + 2 ^ 10) / total ≤ c * 2 ^ 53 / total + 1 :=
    (Nat.div_le_div_right (by omega)).trans_eq (Nat.add_div_right _ pos)
  have lowCard := Finset.card_le_card lower
  have highCard := Finset.card_le_card upper
  rw [card_filter_mul_le _ _ _ pos] at lowCard highCard
  omega

theorem drawsCalling_zero (weights : List Nat) (small : totalWeight weights ≤ 2 ^ 11)
    (nonempty : 0 < weights.length) :
    drawsCalling weights 0 = drawsBelow (totalWeight weights) ((weights.take 1).sum * 2 ^ 53) := by
  ext k
  simp only [drawsCalling, drawsBelow, Finset.mem_filter, Finset.mem_range]
  exact and_congr_right fun draw => (generate_eq_some_iff weights small draw 0).trans
    (by simp [nonempty])

theorem drawsCalling_succ (weights : List Nat) (small : totalWeight weights ≤ 2 ^ 11) {i : Nat}
    (below : i + 1 < weights.length) :
    drawsCalling weights (i + 1) = drawsBelow (totalWeight weights) ((weights.take (i + 2)).sum * 2 ^ 53) \
      drawsBelow (totalWeight weights) ((weights.take (i + 1)).sum * 2 ^ 53) := by
  ext k
  simp only [drawsCalling, drawsBelow, Finset.mem_sdiff, Finset.mem_filter, Finset.mem_range]
  constructor
  · rintro ⟨draw, picked⟩
    obtain ⟨-, above | above, within⟩ := (generate_eq_some_iff weights small draw (i + 1)).mp picked
    · cases above
    · exact ⟨⟨draw, within⟩, fun ⟨_, under⟩ => absurd under (not_le.mpr above)⟩
  · rintro ⟨⟨draw, within⟩, outside⟩
    exact ⟨draw, (generate_eq_some_iff weights small draw (i + 1)).mpr
      ⟨below, .inr (not_le.mp fun under => outside ⟨draw, under⟩), within⟩⟩

theorem drawsBelow_mono (total : Nat) {low high : Nat} (le : low ≤ high) :
    drawsBelow total low ⊆ drawsBelow total high := by
  intro k member
  simp only [drawsBelow, Finset.mem_filter] at member ⊢
  exact ⟨member.1, member.2.trans le⟩

/-- The arithmetic of a count between two bounds: counts that each lie
within 2 above the floor of their bound over `total` differ by a number within
3 of the bounds' difference over `total`. -/
theorem count_within {total a b Na Nb : Nat} (pos : 0 < total) (le : b ≤ a)
    (aLow : a / total ≤ Na) (aHigh : Na ≤ a / total + 2) (bLow : b / total ≤ Nb) (bHigh : Nb ≤ b / total + 2) :
    (Na - Nb) * total ≤ a - b + 3 * total ∧ a - b ≤ (Na - Nb) * total + 3 * total := by
  have aFloor := Nat.div_mul_le_self a total
  have aCeil : a < a / total * total + total := Nat.lt_div_mul_add pos
  have bFloor := Nat.div_mul_le_self b total
  have bCeil : b < b / total * total + total := Nat.lt_div_mul_add pos
  have upper : (Na - Nb) * total ≤ (a / total + 2 - b / total) * total := Nat.mul_le_mul_right _ (by omega)
  have lower : (a / total - b / total) * total ≤ (Na - Nb + 2) * total := Nat.mul_le_mul_right _ (by omega)
  rw [Nat.sub_mul (a / total + 2), Nat.add_mul (a / total)] at upper
  rw [Nat.sub_mul (a / total), Nat.add_mul (Na - Nb)] at lower
  omega

/-- For every weight table whose total lies between `2^10` and `2^11`,
`generate` calls entry `i` for the draw `k / 2^53` exactly when the rounded
product `k * total` lies above the weights before it (or `i = 0`) and at most
the weights through it.  Of the `2^53` draws, the number that call entry `i` is
within 3 of `w_i * 2^53 / total`: each method is called with probability its
weight over the total, up to `3 / 2^53`. -/
theorem generate_calls_entry (weights : List Nat) (large : 2 ^ 10 ≤ totalWeight weights)
    (small : totalWeight weights ≤ 2 ^ 11) (i : Nat) (below : i < weights.length) :
    (∀ k < 2 ^ 53, generate weights k = some i ↔
      (i = 0 ∨ (weights.take i).sum * 2 ^ 53 < roundDouble (k * totalWeight weights)) ∧
        roundDouble (k * totalWeight weights) ≤ (weights.take (i + 1)).sum * 2 ^ 53) ∧
    (drawsCalling weights i).card * totalWeight weights ≤
        weights.getD i 0 * 2 ^ 53 + 3 * totalWeight weights ∧
      weights.getD i 0 * 2 ^ 53 ≤ (drawsCalling weights i).card * totalWeight weights + 3 * totalWeight weights := by
  refine ⟨fun k draw => (generate_eq_some_iff weights small draw i).trans (and_iff_right below), ?_⟩
  have pos : 0 < totalWeight weights := by omega
  have step : (weights.take (i + 1)).sum = (weights.take i).sum + weights.getD i 0 := by
    rw [List.sum_take_succ weights i below, List.getD_eq_getElem _ _ below]
  have through : ∀ n, (weights.take n).sum ≤ totalWeight weights := fun n => by
    rw [totalWeight, ← List.sum_take_add_sum_drop weights n]
    exact Nat.le_add_right _ _
  have gap : (weights.take (i + 1)).sum * 2 ^ 53 - (weights.take i).sum * 2 ^ 53 = weights.getD i 0 * 2 ^ 53 := by
    rw [step, Nat.add_mul, Nat.add_sub_cancel_left]
  obtain ⟨aLow, aHigh⟩ := card_drawsBelow large small (through (i + 1))
  cases i with
  | zero =>
      have counted := count_within pos (Nat.zero_le _) aLow aHigh (Nat.zero_div _).le (Nat.zero_le (0 / _ + 2))
      rw [Nat.sub_zero, Nat.sub_zero] at counted
      rw [List.take_zero, List.sum_nil, zero_mul, Nat.sub_zero] at gap
      rw [drawsCalling_zero weights small below, ← gap]
      exact counted
  | succ j =>
      obtain ⟨bLow, bHigh⟩ := card_drawsBelow large small (through (j + 1))
      have ordered := Nat.mul_le_mul_right (2 ^ 53) (step ▸ Nat.le_add_right _ _ : (weights.take (j + 1)).sum ≤ _)
      rw [drawsCalling_succ weights small below, Finset.card_sdiff (drawsBelow_mono _ ordered), ← gap]
      exact count_within pos ordered aLow aHigh bLow bHigh

/-- The source's table, of total 1890: `gen_arithmetic_diverse`, of weight
100, is called for the draws whose rounded product is at most `100 * 2^53`,
within 3 of `100 * 2^53 / 1890` of them. -/
theorem generate_calls_first :
    2 ^ 10 ≤ totalWeight weights ∧ totalWeight weights ≤ 2 ^ 11 ∧ 0 < weights.length ∧
      (∀ k < 2 ^ 53, generate weights k = some 0 ↔
        (0 = 0 ∨ (weights.take 0).sum * 2 ^ 53 < roundDouble (k * totalWeight weights)) ∧
          roundDouble (k * totalWeight weights) ≤ (weights.take (0 + 1)).sum * 2 ^ 53) ∧
      (drawsCalling weights 0).card * totalWeight weights ≤
          weights.getD 0 0 * 2 ^ 53 + 3 * totalWeight weights ∧
        weights.getD 0 0 * 2 ^ 53 ≤ (drawsCalling weights 0).card * totalWeight weights + 3 * totalWeight weights :=
  ⟨by decide, by decide, by decide, generate_calls_entry weights (by decide) (by decide) 0 (by decide)⟩

end DiversePatternGenerator
end Gen
end Neurlang
