import Cutscene.Interval
import Cutscene.Random
import Mathlib.Data.Int.CardIntervalMod
import Mathlib.Data.Set.Card

/-! Random draws. The loop of a bounded draw ends because the state is a counter with an odd step:
it comes to every state, and at one of them the number is zero, which no bound rejects. The numbers
that are not rejected make up full multiples of the bound, so that no value is favoured. -/

namespace Cutscene.Random

/-- The loop of a bounded draw as it stands, with no limit to its rounds: in so many rounds numbers
are drawn, of which the last one is the first that lies below the limit. -/
inductive Draws (limit : Nat) : Nat → Random → UInt32 → Random → Prop where
  | accept {r : Random} (below : r.next.1.toNat < limit) : Draws limit 1 r r.next.1 r.next.2
  | reject {rounds : Nat} {r r' : Random} {n : UInt32} (above : limit ≤ r.next.1.toNat)
      (rest : Draws limit rounds r.next.2 n r') : Draws limit (rounds + 1) r n r'

/-- The value that an accepted number stands for in a draw between two ends. -/
def valueOf (a b : Int32) (n : UInt32) : Int32 :=
  Int32.ofInt (min a.toInt b.toInt + (n.toNat % span a b : Nat))

/-- The numbers that are accepted in a draw below a bound and give a remainder. -/
def leaving (bound k : Nat) : Set UInt32 := {n | n.toNat < threshold bound ∧ n.toNat % bound = k}

/-- The numbers that are accepted in a draw between two ends and stand for a value. -/
def standingFor (a b v : Int32) : Set UInt32 :=
  {n | n.toNat < threshold (span a b) ∧ valueOf a b n = v}

/-- The inverse of the step among words of 32 bits, which is there because the step is odd. -/
def stepInverse : UInt32 := 0xdc58aa5d

theorem stepInverse_mul_step : stepInverse * step = 1 := by decide

theorem mix_zero : mix 0 = 0 := by decide

variable {limit rounds bound : Nat} {r r' : Random} {n : UInt32} {a b v : Int32}

/-- From any state, the counter comes to any other within as many steps as there are states. -/
theorem exists_steps_to (r s : Random) :
    ∃ k, 0 < k ∧ k ≤ UInt32.size ∧ r + UInt32.ofNat k * step = s := by
  have hreach : r + (s - r) * stepInverse * step = s := by
    have hinverse := stepInverse_mul_step
    grind
  by_cases hzero : (s - r) * stepInverse = 0
  · -- the counter stands there already, and comes back once it is through all states
    refine ⟨UInt32.size, by decide, le_rfl, ?_⟩
    rw [hzero] at hreach
    exact hreach
  · refine ⟨((s - r) * stepInverse).toNat, ?_, ?_, ?_⟩
    · exact Nat.pos_of_ne_zero fun h => hzero (UInt32.toNat_inj.mp h)
    · exact Nat.le_of_lt (UInt32.toNat_lt_size _)
    · rw [UInt32.ofNat_toNat]
      exact hreach

theorem exists_draws_of_lt {k : Nat} (hpos : 0 < k)
    (hlt : (mix (r + UInt32.ofNat k * step)).toNat < limit) :
    ∃ rounds n r', rounds ≤ k ∧ Draws limit rounds r n r' := by
  induction k generalizing r with
  | zero => omega
  | succ k ih =>
    by_cases hnow : r.next.1.toNat < limit
    · exact ⟨1, _, _, by omega, .accept hnow⟩
    · have hmore : 0 < k := by
        refine Nat.pos_of_ne_zero fun hk => hnow ?_
        subst hk
        simpa [next] using hlt
      have hrest : r + UInt32.ofNat (k + 1) * step = r.next.2 + UInt32.ofNat k * step := by
        simp only [next, UInt32.ofNat_add]
        grind
      rw [hrest] at hlt
      obtain ⟨rounds, n, r', hle, hdraws⟩ := ih hmore hlt
      exact ⟨rounds + 1, n, r', by omega, .reject (Nat.le_of_not_lt hnow) hdraws⟩

/-- A draw below any limit ends before the counter has been through its states twice. -/
theorem exists_draws (hpos : 0 < limit) (r : Random) :
    ∃ rounds n r', rounds ≤ UInt32.size ∧ Draws limit rounds r n r' := by
  obtain ⟨k, hk, hle, hzero⟩ := exists_steps_to r 0
  have hlt : (mix (r + UInt32.ofNat k * step)).toNat < limit := by
    rw [hzero, mix_zero]
    exact hpos
  obtain ⟨rounds, n, r', hrounds, hdraws⟩ := exists_draws_of_lt hk hlt
  exact ⟨rounds, n, r', hrounds.trans hle, hdraws⟩

theorem Draws.lt (h : Draws limit rounds r n r') : n.toNat < limit := by
  induction h with
  | accept below => exact below
  | reject above rest ih => exact ih

/-- A search that is given enough rounds does what the loop does. -/
theorem Draws.accepted {fuel : Nat} (h : Draws limit rounds r n r') (hfuel : rounds ≤ fuel) :
    accepted? limit fuel r = some (n, r') := by
  induction h generalizing fuel with
  | accept below =>
    obtain ⟨fuel, rfl⟩ : ∃ k, fuel = k + 1 := ⟨fuel - 1, by omega⟩
    simp only [accepted?, below, if_true]
  | reject above rest ih =>
    obtain ⟨fuel, rfl⟩ : ∃ k, fuel = k + 1 := ⟨fuel - 1, by omega⟩
    simp only [accepted?, if_neg (Nat.not_lt.mpr above)]
    exact ih (by omega)

theorem Draws.below_eq (h : Draws (threshold bound) rounds r n r')
    (hrounds : rounds ≤ UInt32.size) : Random.below bound r = (n.toNat % bound, r') :=
  congrArg (reduced bound r) (h.accepted hrounds)

theorem threshold_le (bound : Nat) : threshold bound ≤ UInt32.size := Nat.div_mul_le_self _ _

theorem threshold_pos (hpos : 0 < bound) (hle : bound ≤ UInt32.size) : 0 < threshold bound :=
  Nat.mul_pos (Nat.div_pos hle hpos) hpos

theorem threshold_size : threshold UInt32.size = UInt32.size := by decide

/-- The multiples of a bound that the threshold holds give every remainder alike. -/
theorem count_remainder (hpos : 0 < bound) {k : Nat} (hk : k < bound) :
    Nat.count (fun x => x % bound = k) (threshold bound) = UInt32.size / bound := by
  have hcount := Nat.count_modEq_card (threshold bound) hpos k
  simpa [Nat.ModEq, Nat.mod_eq_of_lt hk, threshold, hpos] using hcount

theorem low_le_high (a b : Int32) : min a.toInt b.toInt ≤ max a.toInt b.toInt :=
  (min_le_left _ _).trans (le_max_left _ _)

theorem le_low (a b : Int32) : -2 ^ 31 ≤ min a.toInt b.toInt := le_min a.le_toInt b.le_toInt

theorem high_lt (a b : Int32) : max a.toInt b.toInt < 2 ^ 31 := max_lt a.toInt_lt b.toInt_lt

theorem span_eq (a b : Int32) :
    (span a b : Int) = max a.toInt b.toInt - min a.toInt b.toInt + 1 := by
  have hends := low_le_high a b
  exact Int.toNat_of_nonneg (by omega)

theorem span_pos (a b : Int32) : 0 < span a b := by
  have hspan := span_eq a b
  have hends := low_le_high a b
  omega

theorem span_le (a b : Int32) : span a b ≤ UInt32.size := by
  have hspan := span_eq a b
  have hlow := le_low a b
  have hhigh := high_lt a b
  have hsize : UInt32.size = 4294967296 := rfl
  omega

theorem span_comm (a b : Int32) : span a b = span b a := by rw [span, span, max_comm, min_comm]

/-- What a number stands for lies between the ends, so that it is a word and nothing is cut off. -/
theorem valueOf_toInt (a b : Int32) (n : UInt32) :
    (valueOf a b n).toInt = min a.toInt b.toInt + (n.toNat % span a b : Nat) ∧
      min a.toInt b.toInt ≤ (valueOf a b n).toInt ∧
      (valueOf a b n).toInt ≤ max a.toInt b.toInt := by
  have hspan := span_eq a b
  have hmod := Nat.mod_lt n.toNat (span_pos a b)
  have hlow := le_low a b
  have hhigh := high_lt a b
  have hexact : (valueOf a b n).toInt = min a.toInt b.toInt + (n.toNat % span a b : Nat) :=
    Int32.toInt_ofInt_of_le (by omega) (by omega)
  exact ⟨hexact, by omega, by omega⟩

theorem offset_eq_of_draws (h : Draws (threshold bound) rounds r n r')
    (hrounds : rounds ≤ UInt32.size) : offset bound r = (n.toNat % bound, r') := by
  by_cases hfull : bound = UInt32.size
  · -- no number lies beyond the threshold of the full span, so the first one is taken
    subst hfull
    rw [threshold_size] at h
    obtain ⟨rfl, rfl⟩ : n = r.next.1 ∧ r' = r.next.2 := by
      cases h with
      | accept below => exact ⟨rfl, rfl⟩
      | reject above rest => exact absurd (UInt32.toNat_lt_size _) (Nat.not_lt.mpr above)
    rw [offset, if_pos rfl, Nat.mod_eq_of_lt (UInt32.toNat_lt_size _)]
  · rw [offset, if_neg hfull, h.below_eq hrounds]

theorem between_eq_of_draws (h : Draws (threshold (span a b)) rounds r n r')
    (hrounds : rounds ≤ UInt32.size) : between a b r = (valueOf a b n, r') := by
  rw [between, offset_eq_of_draws h hrounds, shifted, valueOf]

/-- A draw between two ends is a number that the loop comes to, counted from the lower end. -/
theorem exists_draws_between (a b : Int32) (r : Random) :
    ∃ rounds n r', rounds ≤ UInt32.size ∧ Draws (threshold (span a b)) rounds r n r' ∧
      between a b r = (valueOf a b n, r') := by
  obtain ⟨rounds, n, r', hrounds, hdraws⟩ :=
    exists_draws (threshold_pos (span_pos a b) (span_le a b)) r
  exact ⟨rounds, n, r', hrounds, hdraws, between_eq_of_draws hdraws hrounds⟩

theorem between_comm (a b : Int32) (r : Random) : between a b r = between b a r := by
  rw [between, between, span_comm, shifted, shifted, min_comm]

/-- A draw ends, whatever the state. For every bound from 1 to the number of words, the loop comes
to its end within as many rounds as there are words. Between two ends the span is such a bound, so
that nothing is divided by zero, and no step leaves the words that it is made in: neither the span,
nor the threshold, nor the sum that is the result. -/
theorem draws_end :
    (∀ bound, 0 < bound → bound ≤ UInt32.size → ∀ r : Random,
      ∃ rounds n r', rounds ≤ UInt32.size ∧ Draws (threshold bound) rounds r n r' ∧
        below bound r = (n.toNat % bound, r')) ∧
    ∀ (a b : Int32) (r : Random),
      Interval.word64.contains (max a.toInt b.toInt - min a.toInt b.toInt) = true ∧
      Interval.word64.contains (max a.toInt b.toInt - min a.toInt b.toInt + 1) = true ∧
      0 < span a b ∧ span a b ≤ UInt32.size ∧ threshold (span a b) ≤ UInt32.size ∧
      ∃ rounds n r', rounds ≤ UInt32.size ∧ Draws (threshold (span a b)) rounds r n r' ∧
        Interval.word32.contains (min a.toInt b.toInt + (n.toNat % span a b : Nat)) = true ∧
        between a b r = (valueOf a b n, r') := by
  refine ⟨fun bound hpos hle r => ?_, fun a b r => ?_⟩
  · obtain ⟨rounds, n, r', hrounds, hdraws⟩ := exists_draws (threshold_pos hpos hle) r
    exact ⟨rounds, n, r', hrounds, hdraws, hdraws.below_eq hrounds⟩
  · have hends := low_le_high a b
    have hlow := le_low a b
    have hhigh := high_lt a b
    obtain ⟨rounds, n, r', hrounds, hdraws, hbetween⟩ := exists_draws_between a b r
    obtain ⟨hexact, hfrom, hto⟩ := valueOf_toInt a b n
    simp only [Interval.contains_iff, Interval.word64, Interval.word32]
    exact ⟨by omega, by omega, span_pos a b, span_le a b, threshold_le _, rounds, n, r', hrounds,
      hdraws, by omega, hbetween⟩

/-- The first number after this state is rejected, and the draw ends all the same. -/
theorem rejected_draw_ends :
    (0 < 3000000000 ∧ 3000000000 ≤ UInt32.size ∧
      threshold 3000000000 ≤ (next 2).1.toNat) ∧
    ∃ rounds n r', rounds ≤ UInt32.size ∧ Draws (threshold 3000000000) rounds 2 n r' ∧
      below 3000000000 2 = (n.toNat % 3000000000, r') := by
  refine ⟨by decide, ?_⟩
  exact draws_end.1 3000000000 (by decide) (by decide) 2

theorem valueOf_eq_iff {k : Nat} (hv : v.toInt = min a.toInt b.toInt + k) (n : UInt32) :
    valueOf a b n = v ↔ n.toNat % span a b = k := by
  rw [← Int32.toInt_inj, (valueOf_toInt a b n).1, hv]
  omega

theorem image_leaving (bound k : Nat) : UInt32.toNat '' leaving bound k =
    ((Finset.range (threshold bound)).filter fun x => x % bound = k) := by
  ext x
  simp only [leaving, Set.mem_image, Set.mem_ofPred_eq, Finset.coe_filter, Finset.mem_range]
  constructor
  · rintro ⟨n, hn, rfl⟩
    exact hn
  · intro hx
    have hword : (UInt32.ofNat x).toNat = x :=
      UInt32.toNat_ofNat_of_lt' (hx.1.trans_le (threshold_le _))
    exact ⟨UInt32.ofNat x, by rwa [hword], hword⟩

theorem ncard_leaving (hpos : 0 < bound) {k : Nat} (hk : k < bound) :
    (leaving bound k).ncard = UInt32.size / bound := by
  rw [← Set.ncard_image_of_injective _ (fun _ _ => UInt32.toNat_inj.mp), image_leaving,
    Set.ncard_coe_finset, ← Nat.count_eq_card_filter_range, count_remainder hpos hk]

theorem ncard_standingFor (hlow : min a.toInt b.toInt ≤ v.toInt)
    (hhigh : v.toInt ≤ max a.toInt b.toInt) :
    (standingFor a b v).ncard = UInt32.size / span a b := by
  obtain ⟨k, hk⟩ := Int.eq_ofNat_of_zero_le (sub_nonneg.mpr hlow)
  have hspan := span_eq a b
  have hv : v.toInt = min a.toInt b.toInt + k := by omega
  have hsame : standingFor a b v = leaving (span a b) k := by
    ext n
    simp only [standingFor, leaving, Set.mem_ofPred_eq, valueOf_eq_iff hv]
  rw [hsame, ncard_leaving (span_pos a b) (by omega)]

/-- For every bound from 1 to the number of words, every remainder is left by the same count of
accepted numbers. A draw between two ends lies there and is the same, with the same state after it,
whichever end comes first. It is what an accepted number stands for, and every value between the
ends has the same count of such numbers, which is one if the ends are the ends of all words. -/
theorem draws_uniform :
    (∀ bound, 0 < bound → bound ≤ UInt32.size → ∀ k < bound,
      (leaving bound k).ncard = UInt32.size / bound) ∧
    ∀ a b : Int32,
      (∀ r : Random, between a b r = between b a r ∧
        ∃ rounds n r', Draws (threshold (span a b)) rounds r n r' ∧
          n.toNat < threshold (span a b) ∧ between a b r = (valueOf a b n, r') ∧
          min a.toInt b.toInt ≤ (valueOf a b n).toInt ∧
          (valueOf a b n).toInt ≤ max a.toInt b.toInt) ∧
      (1 ≤ span a b ∧ span a b ≤ UInt32.size) ∧
      ∀ v : Int32, min a.toInt b.toInt ≤ v.toInt → v.toInt ≤ max a.toInt b.toInt →
        (standingFor a b v).ncard = UInt32.size / span a b ∧
          (span a b = UInt32.size → (standingFor a b v).ncard = 1) := by
  refine ⟨fun bound hpos _ k hk => ncard_leaving hpos hk, fun a b => ⟨fun r => ?_, ?_, ?_⟩⟩
  · obtain ⟨rounds, n, r', -, hdraws, hbetween⟩ := exists_draws_between a b r
    exact ⟨between_comm a b r, rounds, n, r', hdraws, hdraws.lt, hbetween, (valueOf_toInt a b n).2⟩
  · exact ⟨span_pos a b, span_le a b⟩
  · intro v hlow hhigh
    have hcount := ncard_standingFor hlow hhigh
    refine ⟨hcount, fun hfull => ?_⟩
    rw [hcount, hfull, Nat.div_self (by decide)]

/-- A remainder of six, a die with its ends in the wrong order, and a draw from all words. -/
theorem die_and_words_uniform :
    ((0 < 6 ∧ 6 ≤ UInt32.size ∧ 3 < 6) ∧ (leaving 6 3).ncard = 715827882) ∧
    ((min (6 : Int32).toInt (1 : Int32).toInt ≤ (3 : Int32).toInt ∧
        (3 : Int32).toInt ≤ max (6 : Int32).toInt (1 : Int32).toInt) ∧
      (standingFor 6 1 3).ncard = 715827882) ∧
    ((min (-2147483648 : Int32).toInt (2147483647 : Int32).toInt ≤ (-7 : Int32).toInt ∧
        (-7 : Int32).toInt ≤ max (-2147483648 : Int32).toInt (2147483647 : Int32).toInt ∧
        span (-2147483648) 2147483647 = UInt32.size) ∧
      (standingFor (-2147483648) 2147483647 (-7)).ncard = 1) := by
  refine ⟨⟨by decide, ?_⟩, ⟨by decide, ?_⟩, ⟨by decide, ?_⟩⟩
  · exact draws_uniform.1 6 (by decide) (by decide) 3 (by decide)
  · exact ((draws_uniform.2 6 1).2.2 3 (by decide) (by decide)).1
  · exact ((draws_uniform.2 (-2147483648) 2147483647).2.2 (-7) (by decide) (by decide)).2
      (by decide)

end Cutscene.Random
