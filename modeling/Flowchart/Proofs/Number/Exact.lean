import Mathlib.Algebra.Order.Floor.Ring
import Mathlib.Data.Nat.Digits.Defs
import Mathlib.Data.Rat.Floor
import Mathlib.Tactic.FieldSimp
import Mathlib.Tactic.Linarith
import Mathlib.Tactic.NormNum
import Mathlib.Tactic.Positivity
import Mathlib.Tactic.Ring
import Flowchart.Number.Basic

/-! # Arithmetic without rounding

The whole multiples of `2 ^ -k` are a grid, and fewer than `2 ^ 53` steps of it from zero every
point is a number of the floating format (`Binary64.round_of_fits`).  An operation whose exact
result is such a point therefore rounds nothing: its result stands for the exact one
(`Number.Is`), whichever of the two sorts the operands have (`Number.Is.add`, `Number.Is.sub`,
`Number.Is.mul`, `Number.Is.half`, `Number.Is.floorDiv`).  Integers are points of every grid, and
order and extremes need no grid. -/

namespace Flowchart

/-! ### Grids -/

/-- A point of the grid of `2 ^ -k`. -/
def OnGrid (k : Nat) (q : Rat) : Prop := ∃ m : Int, q * 2 ^ k = m

namespace OnGrid

variable {k : Nat} {p q : Rat}

theorem add (hp : OnGrid k p) (hq : OnGrid k q) : OnGrid k (p + q) := by
  obtain ⟨m, hm⟩ := hp
  obtain ⟨n, hn⟩ := hq
  exact ⟨m + n, by rw [add_mul, hm, hn, Int.cast_add]⟩

theorem neg (hp : OnGrid k p) : OnGrid k (-p) := by
  obtain ⟨m, hm⟩ := hp
  exact ⟨-m, by rw [neg_mul, hm, Int.cast_neg]⟩

theorem sub (hp : OnGrid k p) (hq : OnGrid k q) : OnGrid k (p - q) := by
  rw [sub_eq_add_neg]
  exact hp.add hq.neg

theorem intCast_mul (n : Int) (hp : OnGrid k p) : OnGrid k (n * p) := by
  obtain ⟨m, hm⟩ := hp
  exact ⟨n * m, by rw [mul_assoc, hm, Int.cast_mul]⟩

theorem natCast_mul (n : Nat) (hp : OnGrid k p) : OnGrid k (n * p) := by
  have hmul := hp.intCast_mul n
  rwa [Int.cast_natCast] at hmul

theorem intCast (k : Nat) (n : Int) : OnGrid k n := ⟨n * 2 ^ k, by push_cast; rfl⟩

theorem natCast (k n : Nat) : OnGrid k n := .intCast k n

/-- Half a point is a point of the next finer grid. -/
theorem half (hp : OnGrid k p) : OnGrid (k + 1) (p / 2) := by
  obtain ⟨m, hm⟩ := hp
  refine ⟨m, ?_⟩
  rw [← hm, pow_succ]
  ring

theorem succ (hp : OnGrid k p) : OnGrid (k + 1) p := by
  have hdouble := (hp.add hp).half
  rwa [← two_mul, mul_div_cancel_left₀ p two_ne_zero] at hdouble

end OnGrid

/-- A point of the grid of `2 ^ -k`, fewer than `2 ^ 53` steps away from zero. -/
structure Fits (k : Nat) (q : Rat) : Prop where
  fine : k ≤ 1074
  whole : OnGrid k q
  small : |q| * 2 ^ k < 2 ^ 53

theorem Fits.of_abs_le {k : Nat} {p q : Rat} (h : Fits k p) (hq : OnGrid k q) (hle : |q| ≤ |p|) :
    Fits k q :=
  ⟨h.fine, hq, lt_of_le_of_lt (mul_le_mul_of_nonneg_right hle (by positivity)) h.small⟩

/-! ### Rounding -/

theorem two_pow_digitCount_le {n : Nat} (hn : n ≠ 0) : 2 ^ digitCount 2 n ≤ 2 * n := by
  obtain ⟨d, hd⟩ : ∃ d, digitCount 2 n = d + 1 :=
    Nat.exists_eq_succ_of_ne_zero (Nat.ne_of_gt Nat.length_toDigits_pos)
  rw [hd]
  rcases Nat.eq_zero_or_pos d with rfl | hpos
  · omega
  · have hle : ¬ n < 2 ^ d := by
      rw [← Nat.length_toDigits_le_iff (by decide) hpos]
      change ¬ digitCount 2 n ≤ d
      omega
    rw [pow_succ]
    omega

theorem lt_two_pow_digitCount (n : Nat) : n < 2 ^ digitCount 2 n :=
  (Nat.length_toDigits_le_iff (by decide) Nat.length_toDigits_pos).mp (Nat.le_refl _)

theorem ratAbs_eq_abs (q : Rat) : q.abs = |q| := by
  unfold Rat.abs
  split
  · next h => rw [abs_of_nonneg h]
  · next h => rw [abs_of_neg (not_le.mp h)]

theorem two_zpow_leadingExponent_le {q : Rat} (hq : q ≠ 0) :
    (2 : Rat) ^ leadingExponent 2 q ≤ |q| := by
  unfold leadingExponent
  dsimp only
  rw [ratAbs_eq_abs]
  split
  · next hle => exact hle
  · have hnum : (2 : Rat) ^ digitCount 2 q.num.natAbs ≤ 2 * q.num.natAbs := by
      exact_mod_cast two_pow_digitCount_le (Int.natAbs_ne_zero.mpr (Rat.num_ne_zero.mpr hq))
    have hden : (q.den : Rat) ≤ 2 ^ digitCount 2 q.den := by
      exact_mod_cast (lt_two_pow_digitCount q.den).le
    have hpos : (0 : Rat) < q.den := by exact_mod_cast q.den_pos
    have habs : |q| = q.num.natAbs / q.den := by
      rw [Nat.cast_natAbs, Int.cast_abs, ← Nat.abs_cast q.den, ← abs_div, Rat.num_div_den]
    rw [zpow_sub_one₀ two_ne_zero, zpow_sub₀ two_ne_zero, zpow_natCast, zpow_natCast, habs,
      div_mul_eq_mul_div, div_le_div_iff₀ (by positivity) hpos]
    nlinarith

theorem roundHalfEven_intCast (n : Int) : roundHalfEven n = n := by
  unfold roundHalfEven
  have hfloor : (n : Rat).floor = n := by simp
  dsimp only
  rw [hfloor, sub_self, if_pos (by norm_num)]

namespace Binary64

variable {k : Nat} {p q : Rat} {v w : Binary64}

/-- The last place near a point of a grid is no finer than the grid. -/
theorem placeExponent_le (h : Fits k q) (hq : q ≠ 0) : placeExponent q ≤ -k := by
  have hfine := h.fine
  have hlead : (2 : Rat) ^ leadingExponent 2 q < 2 ^ (53 - k : Int) := by
    refine lt_of_le_of_lt (two_zpow_leadingExponent_le hq) ?_
    rw [zpow_sub₀ two_ne_zero, zpow_natCast, lt_div_iff₀ (by positivity)]
    exact h.small
  have hexponent := (zpow_lt_zpow_iff_right₀ one_lt_two).mp hlead
  unfold placeExponent precision minExponent
  omega

/-- **Points of a grid are not rounded.** -/
theorem round_of_fits (h : Fits k q) : round q = finite q := by
  -- The place of the last digit is on the grid or finer, so `q` is a whole number of units there.
  unfold round
  split
  · next hzero => rw [hzero]; rfl
  · next hq =>
      obtain ⟨j, hj⟩ : ∃ j : Nat, placeExponent q = -k - j :=
        ⟨(-k - placeExponent q).toNat, by have := placeExponent_le h hq; omega⟩
      obtain ⟨m, hm⟩ := h.whole
      have hplace : (2 : Rat) ^ placeExponent q ≠ 0 := zpow_ne_zero _ two_ne_zero
      have hquotient : q / (2 : Rat) ^ placeExponent q = ((m * 2 ^ j : Int) : Rat) := by
        rw [hj, zpow_sub₀ two_ne_zero, zpow_neg, zpow_natCast, zpow_natCast]
        push_cast
        rw [← hm]
        field_simp
      have hvalue : (roundHalfEven (q / (2 : Rat) ^ placeExponent q) : Rat) *
          (2 : Rat) ^ placeExponent q = q := by
        rw [hquotient, roundHalfEven_intCast, ← hquotient, div_mul_cancel₀ q hplace]
      have hsmall : |q| < (2 : Rat) ^ overflowExponent := by
        have hone : (1 : Rat) ≤ 2 ^ k := one_le_pow₀ one_le_two
        have habs : |q| ≤ |q| * 2 ^ k := le_mul_of_one_le_right (abs_nonneg q) hone
        have hlarge : (2 : Rat) ^ (53 : Nat) ≤ (2 : Rat) ^ (1024 : Int) := by
          rw [← zpow_natCast]
          exact zpow_le_zpow_right₀ one_le_two (by norm_num)
        exact lt_of_le_of_lt habs (lt_of_lt_of_le h.small hlarge)
      dsimp only
      rw [hvalue, ratAbs_eq_abs, if_neg (not_le.mpr hsmall), if_neg hq]

theorem value?_round (h : Fits k q) : (round q).value? = some q := by
  rw [round_of_fits h]
  rfl

/-! ### Operations of the floating format -/

theorem value?_neg (hv : v.value? = some p) : v.neg.value? = some (-p) := by
  cases v with
  | finite x =>
      obtain rfl := Option.some.inj hv
      unfold neg
      dsimp only
      split
      · next hzero => rw [hzero, neg_zero]; rfl
      · rfl
  | negativeZero =>
      obtain rfl := Option.some.inj hv
      rfl
  | infinite s => cases hv
  | nan => cases hv

theorem value?_add (hv : v.value? = some p) (hw : w.value? = some q) (h : Fits k (p + q)) :
    (v.add w).value? = some (p + q) := by
  cases v <;> cases w <;> simp only [value?, Option.some.injEq, reduceCtorEq] at hv hw <;>
    subst hv hw
  · exact value?_round h
  · rw [add_zero]; rfl
  · rw [zero_add]; rfl
  · rw [add_zero]; rfl

theorem value?_sub (hv : v.value? = some p) (hw : w.value? = some q) (h : Fits k (p - q)) :
    (v.sub w).value? = some (p - q) := by
  rw [sub_eq_add_neg] at h ⊢
  exact value?_add hv (value?_neg hw) h

theorem value?_signedZero (negative : Bool) : (signedZero negative).value? = some 0 := by
  cases negative <;> rfl

theorem mul_eq (hv : v.value? = some p) (hw : w.value? = some q) :
    v.mul w = if p * q = 0 then signedZero (v.isNegative != w.isNegative) else round (p * q) := by
  cases v <;> cases w <;> simp only [value?, Option.some.injEq, reduceCtorEq] at hv hw <;>
    subst hv hw <;> rfl

theorem value?_mul (hv : v.value? = some p) (hw : w.value? = some q) (h : Fits k (p * q)) :
    (v.mul w).value? = some (p * q) := by
  rw [mul_eq hv hw]
  split
  · next hzero => rw [hzero, value?_signedZero]
  · exact value?_round h

theorem value?_half (hv : v.value? = some p) (h : Fits k (p / 2)) :
    v.half.value? = some (p / 2) := by
  cases v with
  | finite x =>
      obtain rfl := Option.some.inj hv
      exact value?_round h
  | negativeZero =>
      obtain rfl := Option.some.inj hv
      rw [zero_div]
      rfl
  | infinite s => cases hv
  | nan => cases hv

theorem truncate_of_nonneg (h : 0 ≤ q) : truncate q = ⌊q⌋ := by
  rw [truncate, if_neg (not_lt.mpr h)]
  rfl

theorem floorQuotient_intCast (n : Int) : floorQuotient n = n := by
  unfold floorQuotient
  have hfloor : (n : Rat).floor = n := by simp
  dsimp only
  rw [hfloor, sub_self, if_neg (by norm_num)]

/-- A whole divisor brings a quotient nearer to zero, and its multiple below the dividend too. -/
theorem fits_floor (h : Fits k p) (hp : 0 ≤ p) {n : Nat} (hn : 0 < n) :
    Fits k ⌊p / n⌋ ∧ Fits k (n * ⌊p / n⌋) := by
  have hn' : (1 : Rat) ≤ n := by exact_mod_cast hn
  have hfloor : (0 : Rat) ≤ ⌊p / n⌋ := by exact_mod_cast Int.floor_nonneg.mpr (by positivity)
  have hle : (n : Rat) * ⌊p / n⌋ ≤ p := by
    have := Int.floor_le (p / n)
    rw [le_div_iff₀ (by positivity)] at this
    linarith
  have hmul : (⌊p / n⌋ : Rat) ≤ n * ⌊p / n⌋ := le_mul_of_one_le_left hfloor hn'
  refine ⟨h.of_abs_le (.intCast k _) ?_, h.of_abs_le (.intCast_mul n (.intCast k _)) ?_⟩
  · rw [abs_of_nonneg hfloor, abs_of_nonneg hp]
    exact hmul.trans hle
  · rw [abs_of_nonneg (hfloor.trans hmul), abs_of_nonneg hp]
    exact hle

theorem value?_floorDivRat (h : Fits k p) (hp : 0 ≤ p) {n : Nat} (hn : 0 < n) :
    (floorDivRat p n).value? = some (⌊p / n⌋ : Rat) := by
  have hn' : (0 : Rat) < n := by exact_mod_cast hn
  obtain ⟨hfits, hmultiple⟩ := fits_floor h hp hn
  have hremainder : 0 ≤ p - n * ⌊p / n⌋ := by
    have := Int.floor_le (p / n)
    rw [le_div_iff₀ hn'] at this
    linarith
  unfold floorDivRat
  dsimp only
  rw [truncate_of_nonneg (by positivity), sub_sub_cancel, round_of_fits hmultiple]
  dsimp only
  rw [mul_div_cancel_left₀ _ hn'.ne', round_of_fits hfits, if_neg]
  · dsimp only
    split
    · next hzero => rw [hzero, value?_signedZero]
    · rw [floorQuotient_intCast]
      rfl
  · rintro ⟨-, hsigns⟩
    exact hsigns (by simp [not_lt.mpr hn'.le, not_lt.mpr hremainder])

theorem floorDiv_eq (hv : v.value? = some p) (hw : w.value? = some q) :
    v.floorDiv w =
      if p = 0 then signedZero (v.isNegative != w.isNegative) else floorDivRat p q := by
  cases v <;> cases w <;> simp only [value?, Option.some.injEq, reduceCtorEq] at hv hw <;>
    subst hv hw <;> rfl

theorem value?_floorDiv {n : Nat} (hv : v.value? = some p) (hw : w.value? = some (n : Rat))
    (h : Fits k p) (hp : 0 ≤ p) (hn : 0 < n) : (v.floorDiv w).value? = some (⌊p / n⌋ : Rat) := by
  rw [floorDiv_eq hv hw]
  split
  · next hzero => rw [hzero, zero_div, Int.floor_zero, Int.cast_zero, value?_signedZero]
  · exact value?_floorDivRat h hp hn

end Binary64

/-! ### Operations on both sorts -/

namespace Number

/-- A number stands for a rational. -/
def Is (x : Number) (q : Rat) : Prop := x.place? = some (.at q)

/-- The value of a number, zero for a number without one. -/
def value (x : Number) : Rat :=
  match x.place? with
  | some (.at q) => q
  | _ => 0

namespace Is

variable {i j k : Nat} {x y : Number} {p q : Rat}

theorem unique (h : x.Is p) (h' : x.Is q) : p = q := by
  rw [Is, h] at h'
  exact Place.at.inj (Option.some.inj h')

theorem value_eq (h : x.Is p) : x.value = p := by
  rw [value, h]

theorem is_value (h : x.Is p) : x.Is x.value := by
  rwa [h.value_eq]

theorem int (n : Int) : (Number.int n).Is n := rfl

theorem natCast (n : Nat) : (Number.int n).Is n := int n

theorem real_iff {v : Binary64} : (Number.real v).Is q ↔ v.value? = some q := by
  cases v with
  | finite r => simp [Is, place?, Binary64.value?]
  | negativeZero => simp [Is, place?, Binary64.value?]
  | infinite s => cases s <;> simp [Is, place?, Binary64.value?]
  | nan => simp [Is, place?, Binary64.value?]

theorem exists_toReal (hx : x.Is p) (h : Fits k p) :
    ∃ v, x.toReal = .ok v ∧ v.value? = some p := by
  cases x with
  | int n =>
      obtain rfl := (int n).unique hx
      refine ⟨.finite n, ?_, rfl⟩
      rw [toReal, Binary64.round_of_fits h]
  | real v => exact ⟨v, rfl, real_iff.mp hx⟩

/-- An operation that is exact on integers and on the floating format is exact. -/
theorem exists_lift {onInt : Int → Int → Int} {onReal : Binary64 → Binary64 → Binary64}
    {f : Rat → Rat → Rat} (hint : ∀ m n : Int, ((onInt m n : Int) : Rat) = f m n)
    (hreal : ∀ v w, v.value? = some p → w.value? = some q → (onReal v w).value? = some (f p q))
    (hx : x.Is p) (hy : y.Is q) (hp : Fits i p) (hq : Fits j q) :
    ∃ z, lift onInt onReal x y = .ok z ∧ z.Is (f p q) := by
  obtain ⟨v, hv, hvalue⟩ := hx.exists_toReal hp
  obtain ⟨w, hw, hvalue'⟩ := hy.exists_toReal hq
  have hfloating : ∃ z, (do return real (onReal (← x.toReal) (← y.toReal))) =
      (Except.ok z : Except ArithmeticError Number) ∧ z.Is (f p q) := by
    rw [hv, hw]
    exact ⟨_, rfl, real_iff.mpr (hreal v w hvalue hvalue')⟩
  cases x with
  | real a => exact hfloating
  | int m =>
      cases y with
      | real b => exact hfloating
      | int n =>
          obtain rfl := (int m).unique hx
          obtain rfl := (int n).unique hy
          refine ⟨.int (onInt m n), rfl, ?_⟩
          rw [← hint]
          exact int _

theorem add (hx : x.Is p) (hy : y.Is q) (hp : Fits i p) (hq : Fits j q) (h : Fits k (p + q)) :
    ∃ z, x.add y = .ok z ∧ z.Is (p + q) :=
  exists_lift (f := (· + ·)) Int.cast_add (fun _ _ hv hw => Binary64.value?_add hv hw h) hx hy hp hq

theorem sub (hx : x.Is p) (hy : y.Is q) (hp : Fits i p) (hq : Fits j q) (h : Fits k (p - q)) :
    ∃ z, x.sub y = .ok z ∧ z.Is (p - q) :=
  exists_lift (f := (· - ·)) Int.cast_sub (fun _ _ hv hw => Binary64.value?_sub hv hw h) hx hy hp hq

theorem mul (hx : x.Is p) (hy : y.Is q) (hp : Fits i p) (hq : Fits j q) (h : Fits k (p * q)) :
    ∃ z, x.mul y = .ok z ∧ z.Is (p * q) :=
  exists_lift (f := (· * ·)) Int.cast_mul (fun _ _ hv hw => Binary64.value?_mul hv hw h) hx hy hp hq

theorem half (hx : x.Is p) (h : Fits k (p / 2)) : ∃ z, x.half = .ok z ∧ z.Is (p / 2) := by
  cases x with
  | int n =>
      obtain rfl := (int n).unique hx
      refine ⟨.real (.finite (n / 2)), ?_, rfl⟩
      rw [Number.half, Binary64.round_of_fits h]
  | real v => exact ⟨_, rfl, real_iff.mpr (Binary64.value?_half (real_iff.mp hx) h)⟩

theorem floorDiv (hx : x.Is p) (h : Fits k p) (hp : 0 ≤ p) {n : Nat} (hn : 0 < n)
    (hfits : Fits j n) : ∃ z, x.floorDiv (.int n) = .ok z ∧ z.Is ⌊p / n⌋ := by
  cases x with
  | int m =>
      obtain rfl := (int m).unique hx
      refine ⟨.int (m.fdiv n), if_neg (by exact_mod_cast hn.ne'), ?_⟩
      rw [Rat.floor_intCast_div_natCast, ← Int.fdiv_eq_ediv_of_nonneg m (Int.natCast_nonneg n)]
      exact int _
  | real v =>
      obtain ⟨w, hw, hvalue⟩ := (int n).exists_toReal hfits
      have hne : w.value? ≠ some 0 := by
        rw [hvalue]
        simpa using hn.ne'
      have hvalue := Binary64.value?_floorDiv (real_iff.mp hx) hvalue h hp hn
      refine ⟨.real (v.floorDiv w), ?_, real_iff.mpr hvalue⟩
      change (do
        let w ← (Number.int n).toReal
        if w.value? = some 0 then .error (.divisionByZero true) else return real (v.floorDiv w)) = _
      rw [hw]
      exact if_neg hne

theorem toInt {n : Int} (hx : x.Is n) : x.toInt = .ok n := by
  cases x with
  | int m => exact congrArg _ (by exact_mod_cast (int m).unique hx)
  | real v =>
      have hvalue := real_iff.mp hx
      cases v <;> simp only [Binary64.value?, Option.some.injEq, reduceCtorEq] at hvalue
      · subst hvalue
        simp [Number.toInt, Binary64.truncate]
      · obtain rfl : n = 0 := by exact_mod_cast hvalue.symm
        rfl

/-! ### Order -/

theorem lt_iff (hx : x.Is p) (hy : y.Is q) : x.lt y = true ↔ p < q := by
  rw [lt, hx, hy]
  exact decide_eq_true_iff

theorem le_iff (hx : x.Is p) (hy : y.Is q) : x.le y = true ↔ p ≤ q := by
  rw [le, Bool.or_eq_true, hx.lt_iff hy, eqv, hx, hy, le_iff_lt_or_eq]
  simp

theorem max (hx : x.Is p) (hy : y.Is q) : (x.max y).Is (Max.max p q) := by
  unfold Number.max
  split
  · next hlt => rwa [max_eq_right ((hx.lt_iff hy).mp hlt).le]
  · next hle => rwa [max_eq_left (not_lt.mp fun h => hle ((hx.lt_iff hy).mpr h))]

theorem min (hx : x.Is p) (hy : y.Is q) : (x.min y).Is (Min.min p q) := by
  unfold Number.min
  split
  · next hlt => rwa [min_eq_right ((hy.lt_iff hx).mp hlt).le]
  · next hle => rwa [min_eq_left (not_lt.mp fun h => hle ((hy.lt_iff hx).mpr h))]

/-- An operation that chooses one of two numbers, taken over a list, chooses one that no other
exceeds in the order of the choice. -/
theorem exists_foldl {op : Number → Number → Number} {choose : Rat → Rat → Rat}
    {R : Rat → Rat → Prop} (hop : ∀ {x y p q}, x.Is p → y.Is q → (op x y).Is (choose p q))
    (hchoice : ∀ p q, choose p q = p ∨ choose p q = q) (hrefl : ∀ p, R p p)
    (htrans : ∀ {p q r}, R p q → R q r → R p r) (hleft : ∀ p q, R p (choose p q))
    (hright : ∀ p q, R q (choose p q)) {others : List Number} (hx : x.Is p)
    (h : ∀ z ∈ others, ∃ r, z.Is r) :
    ∃ r, (others.foldl op x).Is r ∧ R p r ∧ (∀ z ∈ others, ∀ q, z.Is q → R q r) ∧
      (r = p ∨ ∃ z ∈ others, z.Is r) := by
  induction others generalizing x p with
  | nil => exact ⟨p, hx, hrefl p, by simp, .inl rfl⟩
  | cons z others ih =>
      obtain ⟨⟨q, hz⟩, hothers⟩ := List.forall_mem_cons.mp h
      obtain ⟨r, hr, hbest, hall, hmem⟩ := ih (hop hx hz) hothers
      refine ⟨r, hr, htrans (hleft p q) hbest, List.forall_mem_cons.mpr ⟨?_, hall⟩, ?_⟩
      · intro q' hq'
        rw [hq'.unique hz]
        exact htrans (hright p q) hbest
      · rcases hmem with rfl | ⟨z', hz', hr'⟩
        · rcases hchoice p q with heq | heq
          · exact .inl heq
          · exact .inr ⟨z, List.mem_cons_self, by rwa [heq]⟩
        · exact .inr ⟨z', List.mem_cons_of_mem z hz', hr'⟩

theorem exists_greatest {others : List Number} (hx : x.Is p) (h : ∀ z ∈ others, ∃ r, z.Is r) :
    ∃ r, (greatest x others).Is r ∧ p ≤ r ∧ (∀ z ∈ others, ∀ q, z.Is q → q ≤ r) ∧
      (r = p ∨ ∃ z ∈ others, z.Is r) :=
  exists_foldl max max_choice le_refl le_trans le_max_left le_max_right hx h

theorem exists_least {others : List Number} (hx : x.Is p) (h : ∀ z ∈ others, ∃ r, z.Is r) :
    ∃ r, (least x others).Is r ∧ r ≤ p ∧ (∀ z ∈ others, ∀ q, z.Is q → r ≤ q) ∧
      (r = p ∨ ∃ z ∈ others, z.Is r) :=
  exists_foldl (R := fun p r => r ≤ p) min min_choice le_refl (fun h h' => le_trans h' h)
    min_le_left min_le_right hx h

end Is

/-! ### Extremes -/

theorem foldl_mem_cons {op : Number → Number → Number} (hop : ∀ x y, op x y = x ∨ op x y = y)
    (x : Number) (l : List Number) : l.foldl op x ∈ x :: l := by
  induction l generalizing x with
  | nil => exact List.mem_cons_self
  | cons y l ih =>
      rw [List.foldl_cons]
      rcases List.mem_cons.mp (ih (op x y)) with heq | hmem
      · rw [heq]
        rcases hop x y with h | h <;> rw [h] <;> simp
      · exact List.mem_cons_of_mem x (List.mem_cons_of_mem y hmem)

theorem least_mem (x : Number) (l : List Number) : least x l ∈ x :: l :=
  foldl_mem_cons (fun x y => by unfold min; split <;> simp) x l

theorem greatest_mem (x : Number) (l : List Number) : greatest x l ∈ x :: l :=
  foldl_mem_cons (fun x y => by unfold max; split <;> simp) x l

/-- No other number is greater than the greatest one. -/
theorem greatest_lt_eq_false {x : Number} {l : List Number} (h : ∀ z ∈ x :: l, ∃ q, z.Is q) :
    ∀ z ∈ x :: l, (greatest x l).lt z = false := by
  obtain ⟨⟨p, hx⟩, hl⟩ := List.forall_mem_cons.mp h
  obtain ⟨r, hr, hfirst, hothers, -⟩ := hx.exists_greatest hl
  intro z hz
  obtain ⟨q, hq⟩ := h z hz
  rw [← Bool.not_eq_true, hr.lt_iff hq, not_lt]
  rcases List.mem_cons.mp hz with rfl | hz
  · rwa [hq.unique hx]
  · exact hothers z hz q hq

/-! ### Integers -/

/-- An integer, not a floating-point number. -/
def isInt : Number → Bool
  | int _ => true
  | real _ => false

theorem exists_eq_int {x : Number} (h : x.isInt = true) : ∃ n, x = .int n := by
  cases x with
  | int n => exact ⟨n, rfl⟩
  | real v => cases h

theorem lt_int {m n : Int} : (Number.int m).lt (.int n) = true ↔ m < n := by
  rw [(Is.int m).lt_iff (Is.int n), Int.cast_lt]

theorem exists_least_eq_int {x : Number} {l : List Number}
    (hint : ∀ z ∈ x :: l, z.isInt = true) :
    ∃ m, least x l = .int m ∧ .int m ∈ x :: l ∧ ∀ n, .int n ∈ x :: l → m ≤ n := by
  have hmem := least_mem x l
  obtain ⟨m, hm⟩ := exists_eq_int (hint _ hmem)
  obtain ⟨hx, hl⟩ := List.forall_mem_cons.mp hint
  obtain ⟨k, rfl⟩ := exists_eq_int hx
  have hfinite : ∀ z ∈ l, ∃ q, z.Is q := by
    intro z hz
    obtain ⟨n, rfl⟩ := exists_eq_int (hl z hz)
    exact ⟨n, .int n⟩
  obtain ⟨r, hr, hfirst, hothers, -⟩ := (Is.int k).exists_least hfinite
  rw [hm] at hr hmem
  obtain rfl := hr.unique (.int m)
  refine ⟨m, hm, hmem, fun n hn => ?_⟩
  rcases List.mem_cons.mp hn with heq | hn
  · obtain rfl := int.inj heq
    exact_mod_cast hfirst
  · exact_mod_cast hothers _ hn _ (.int n)

/-- The least of some integers does not depend on their order. -/
theorem least_eq_of_perm {x x' : Number} {l l' : List Number} (hperm : (x' :: l').Perm (x :: l))
    (hint : ∀ z ∈ x :: l, z.isInt = true) : least x' l' = least x l := by
  obtain ⟨m, hm, hmem, hle⟩ := exists_least_eq_int hint
  obtain ⟨m', hm', hmem', hle'⟩ := exists_least_eq_int fun z hz => hint z (hperm.mem_iff.mp hz)
  rw [hm, hm', le_antisymm (hle' m (hperm.mem_iff.mpr hmem)) (hle m' (hperm.mem_iff.mp hmem'))]

end Number

end Flowchart
