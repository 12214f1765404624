import Mathlib.Algebra.Order.Floor.Ring
import Mathlib.Data.Int.Log
import Mathlib.Data.Rat.Floor
import Mathlib.Tactic.Linarith

/-!
# Rounding to double precision

The value of a floating-point operation is the exact one, rounded to the nearest number with 53
binary digits, ties going to the even one.  The exponent is not bounded here, so the rounding is
the one of IEEE 754 wherever a result is not subnormal; one that is too large is infinite there.
-/

namespace Binary64

/-! ### The nearest integer -/

/-- The nearest integer, and of two the even one. -/
def nearestEven (q : ℚ) : ℤ :=
  if q - ⌊q⌋ < 1 / 2 then ⌊q⌋
  else if 1 / 2 < q - ⌊q⌋ then ⌊q⌋ + 1
  else if Even ⌊q⌋ then ⌊q⌋
  else ⌊q⌋ + 1

theorem nearestEven_intCast (n : ℤ) : nearestEven n = n := by
  simp [nearestEven]

theorem floor_le_nearestEven (q : ℚ) : ⌊q⌋ ≤ nearestEven q := by
  unfold nearestEven
  split_ifs <;> omega

theorem nearestEven_le (q : ℚ) : nearestEven q ≤ ⌊q⌋ + 1 := by
  unfold nearestEven
  split_ifs <;> omega

theorem nearestEven_mono {p q : ℚ} (h : p ≤ q) : nearestEven p ≤ nearestEven q := by
  have hfloor : ⌊p⌋ ≤ ⌊q⌋ := Int.floor_mono h
  rcases hfloor.lt_or_eq with hlt | heq
  · exact (nearestEven_le p).trans ((Int.add_one_le_of_lt hlt).trans (floor_le_nearestEven q))
  · -- With one floor, the remainders decide, and the same floor decides a tie.
    unfold nearestEven
    rw [heq]
    split_ifs <;> first | omega | linarith

theorem nearestEven_neg (q : ℚ) : nearestEven (-q) = -nearestEven q := by
  by_cases hint : (⌊q⌋ : ℚ) = q
  · rw [← hint, ← Int.cast_neg, nearestEven_intCast, nearestEven_intCast]
  · -- The floors of a fraction and its negative are apart by one, so a tie goes to the same number.
    have hlow : (⌊q⌋ : ℚ) < q := lt_of_le_of_ne (Int.floor_le q) hint
    have hhigh : q < ⌊q⌋ + 1 := Int.lt_floor_add_one q
    have hfloor : ⌊-q⌋ = -⌊q⌋ - 1 := by
      rw [Int.floor_eq_iff]
      push_cast
      constructor <;> linarith
    have heven : Even (-⌊q⌋ - 1) ↔ ¬ Even ⌊q⌋ := by
      rw [Int.even_sub_one, even_neg]
    unfold nearestEven
    rw [hfloor]
    push_cast
    split_ifs <;> first | omega | tauto | (exfalso; linarith)

/-! ### Rounding -/

/-- The exponent of the last of the 53 digits of `x`. -/
def lastDigit (x : ℚ) : ℤ := Int.log 2 |x| - 52

def round (x : ℚ) : ℚ := nearestEven (x / 2 ^ lastDigit x) * 2 ^ lastDigit x

/-- A number with 53 binary digits. -/
def Representable (x : ℚ) : Prop := ∃ (m : ℕ) (e : ℤ), m < 2 ^ 53 ∧ x = m * 2 ^ e

/-- The rounded number is within the range of doubles. -/
def IsFinite (x : ℚ) : Prop := |round x| < 2 ^ 1024

instance (x : ℚ) : Decidable (IsFinite x) := inferInstanceAs (Decidable (_ < _))

theorem round_zero : round 0 = 0 := by
  have hzero : nearestEven 0 = 0 := by exact_mod_cast nearestEven_intCast 0
  simp [round, hzero]

theorem lastDigit_of_pos {x : ℚ} (hx : 0 < x) : lastDigit x = Int.log 2 x - 52 := by
  rw [lastDigit, abs_of_pos hx]

theorem two_zpow_pos (e : ℤ) : (0 : ℚ) < 2 ^ e := zpow_pos two_pos e

/-- The 53 digits of a positive number. -/
theorem digits_bounds {x : ℚ} (hx : 0 < x) :
    (2 : ℚ) ^ (52 : ℤ) ≤ x / 2 ^ lastDigit x ∧ x / 2 ^ lastDigit x < 2 ^ (53 : ℤ) := by
  have hlow := Int.zpow_log_le_self (b := 2) (by norm_num) hx
  have hhigh := Int.lt_zpow_succ_log_self (b := 2) (by norm_num) x
  constructor
  · rw [le_div_iff₀ (two_zpow_pos _), ← zpow_add₀ two_ne_zero, lastDigit_of_pos hx]
    simpa using hlow
  · rw [div_lt_iff₀ (two_zpow_pos _), ← zpow_add₀ two_ne_zero, lastDigit_of_pos hx]
    have hexponent : 53 + (Int.log 2 x - 52) = Int.log 2 x + 1 := by omega
    rw [hexponent]
    simpa using hhigh

theorem round_eq_self {x : ℚ} (hx : Representable x) : round x = x := by
  obtain ⟨m, e, hm, hx⟩ := hx
  rcases Nat.eq_zero_or_pos m with rfl | hpos
  · simpa [hx] using round_zero
  have hxpos : 0 < x := hx ▸ mul_pos (Nat.cast_pos.mpr hpos) (two_zpow_pos e)
  -- The last digit of `x` is not to the left of the last digit of `m`.
  have hlast : lastDigit x ≤ e := by
    have hlow := (digits_bounds hxpos).1
    rw [le_div_iff₀ (two_zpow_pos _), ← zpow_add₀ two_ne_zero] at hlow
    have hhigh : x < 2 ^ (53 + e) := by
      rw [hx, zpow_add₀ two_ne_zero]
      have hmcast : (m : ℚ) < 2 ^ (53 : ℤ) := by exact_mod_cast hm
      exact mul_lt_mul_of_pos_right hmcast (two_zpow_pos e)
    have hexponents := (zpow_lt_zpow_iff_right₀ (by norm_num : (1 : ℚ) < 2)).mp (hlow.trans_lt hhigh)
    omega
  obtain ⟨k, hk⟩ := Int.eq_ofNat_of_zero_le (sub_nonneg.mpr hlast)
  have hdigits : x / 2 ^ lastDigit x = ((m * 2 ^ k : ℤ) : ℚ) := by
    rw [div_eq_iff (two_zpow_pos _).ne']
    have hsplit : (2 : ℚ) ^ e = 2 ^ k * 2 ^ lastDigit x := by
      rw [← zpow_natCast, ← zpow_add₀ two_ne_zero]
      congr 1
      omega
    calc x = m * (2 ^ k * 2 ^ lastDigit x) := by rw [← hsplit]; exact hx
      _ = ((m * 2 ^ k : ℤ) : ℚ) * 2 ^ lastDigit x := by push_cast; ring
  rw [round, hdigits, nearestEven_intCast, ← hdigits, div_mul_cancel₀ _ (two_zpow_pos _).ne']

/-- A rounded number stays within the powers of two around it. -/
theorem round_bounds {x : ℚ} (hx : 0 < x) :
    (2 : ℚ) ^ Int.log 2 x ≤ round x ∧ round x ≤ 2 ^ (Int.log 2 x + 1) := by
  obtain ⟨hlow, hhigh⟩ := digits_bounds hx
  have hlow' : (2 : ℤ) ^ 52 ≤ nearestEven (x / 2 ^ lastDigit x) := by
    have hmono := nearestEven_mono (p := ((2 ^ 52 : ℤ) : ℚ)) (by push_cast; exact_mod_cast hlow)
    rwa [nearestEven_intCast] at hmono
  have hhigh' : nearestEven (x / 2 ^ lastDigit x) ≤ (2 : ℤ) ^ 53 := by
    have hmono := nearestEven_mono (q := ((2 ^ 53 : ℤ) : ℚ)) (by push_cast; exact_mod_cast hhigh.le)
    rwa [nearestEven_intCast] at hmono
  have hsplit : ∀ n : ℤ, (2 : ℚ) ^ n * 2 ^ lastDigit x = 2 ^ (n + lastDigit x) := fun n =>
    (zpow_add₀ two_ne_zero _ _).symm
  constructor
  · have hpower : (2 : ℚ) ^ Int.log 2 x = 2 ^ (52 : ℤ) * 2 ^ lastDigit x := by
      rw [hsplit, lastDigit_of_pos hx]
      congr 1
      omega
    rw [hpower, round]
    exact mul_le_mul_of_nonneg_right (by exact_mod_cast hlow') (two_zpow_pos _).le
  · have hpower : (2 : ℚ) ^ (Int.log 2 x + 1) = 2 ^ (53 : ℤ) * 2 ^ lastDigit x := by
      rw [hsplit, lastDigit_of_pos hx]
      congr 1
      omega
    rw [hpower, round]
    exact mul_le_mul_of_nonneg_right (by exact_mod_cast hhigh') (two_zpow_pos _).le

theorem round_nonneg {x : ℚ} (hx : 0 ≤ x) : 0 ≤ round x := by
  rcases hx.lt_or_eq with hpos | rfl
  · exact (two_zpow_pos _).le.trans (round_bounds hpos).1
  · exact round_zero.ge

theorem round_mono_of_nonneg {x y : ℚ} (hx : 0 ≤ x) (h : x ≤ y) : round x ≤ round y := by
  rcases hx.lt_or_eq with hpos | rfl
  · have hlog : Int.log 2 x ≤ Int.log 2 y := Int.log_mono_right hpos h
    rcases hlog.lt_or_eq with hlt | heq
    · calc round x ≤ 2 ^ (Int.log 2 x + 1) := (round_bounds hpos).2
        _ ≤ 2 ^ Int.log 2 y := zpow_le_zpow_right₀ (by norm_num) hlt
        _ ≤ round y := (round_bounds (hpos.trans_le h)).1
    · have hlast : lastDigit x = lastDigit y := by
        rw [lastDigit_of_pos hpos, lastDigit_of_pos (hpos.trans_le h), heq]
      rw [round, round, hlast]
      refine mul_le_mul_of_nonneg_right ?_ (two_zpow_pos _).le
      have hdigits : x / 2 ^ lastDigit y ≤ y / 2 ^ lastDigit y :=
        div_le_div_of_nonneg_right h (two_zpow_pos _).le
      exact_mod_cast nearestEven_mono hdigits
  · rw [round_zero]
    exact round_nonneg h

theorem round_neg (x : ℚ) : round (-x) = -round x := by
  rw [round, round, lastDigit, lastDigit, abs_neg, neg_div, nearestEven_neg, Int.cast_neg, neg_mul]

theorem round_mono {x y : ℚ} (h : x ≤ y) : round x ≤ round y := by
  rcases le_total 0 x with hx | hx
  · exact round_mono_of_nonneg hx h
  · rcases le_total 0 y with hy | hy
    · have hneg : 0 ≤ -round x := round_neg x ▸ round_nonneg (neg_nonneg.mpr hx)
      exact (neg_nonneg.mp hneg).trans (round_nonneg hy)
    · have hneg := round_mono_of_nonneg (neg_nonneg.mpr hy) (neg_le_neg h)
      rwa [round_neg, round_neg, neg_le_neg_iff] at hneg

/-! ### Integers -/

theorem round_intCast {z : ℤ} (h : |z| ≤ 2 ^ 53) : round z = z := by
  have hnat : ∀ n : ℕ, n ≤ 2 ^ 53 → round (n : ℚ) = n := by
    intro n hn
    rcases hn.lt_or_eq with hlt | rfl
    · exact round_eq_self ⟨n, 0, hlt, by simp⟩
    · exact round_eq_self ⟨1, 53, by norm_num, by norm_num⟩
  obtain ⟨n, rfl | rfl⟩ := Int.eq_nat_or_neg z
  · exact_mod_cast hnat n (by rw [Nat.abs_cast] at h; exact_mod_cast h)
  · have hexact := hnat n (by rw [abs_neg, Nat.abs_cast] at h; exact_mod_cast h)
    push_cast
    rw [round_neg, hexact]

/-- A rounded integer is on the same side of an exact one. -/
theorem round_le_intCast_iff {z n : ℤ} (h : |n| < 2 ^ 53) : round z ≤ n ↔ z ≤ n := by
  constructor
  · intro hle
    by_contra hlt
    have hmono : round ((n + 1 : ℤ) : ℚ) ≤ round z :=
      round_mono (by exact_mod_cast Int.add_one_le_of_lt (not_le.mp hlt))
    rw [round_intCast ((abs_add_le n 1).trans (by rw [abs_one]; exact h))] at hmono
    have := hmono.trans hle
    push_cast at this
    linarith
  · intro hle
    rw [← round_intCast h.le]
    exact round_mono (by exact_mod_cast hle)

/-- An integer is not rounded into the range of those that are exact. -/
theorem round_eq_intCast {z : ℤ} (h : |round z| < 2 ^ 53) : round z = z := by
  obtain ⟨hlow, hhigh⟩ := abs_lt.mp h
  have hexact : round ((2 ^ 53 : ℤ) : ℚ) = 2 ^ 53 := by
    rw [round_intCast (by norm_num)]
    norm_num
  refine round_intCast (abs_le.mpr ⟨?_, ?_⟩)
  · by_contra hlt
    have hmono : round z ≤ round ((-(2 ^ 53) : ℤ) : ℚ) :=
      round_mono (by exact_mod_cast (not_le.mp hlt).le)
    rw [Int.cast_neg, round_neg, hexact] at hmono
    exact absurd hmono (not_le.mpr hlow)
  · by_contra hlt
    have hmono : round ((2 ^ 53 : ℤ) : ℚ) ≤ round z :=
      round_mono (by exact_mod_cast (not_le.mp hlt).le)
    rw [hexact] at hmono
    exact absurd hmono (not_le.mpr hhigh)

/-! ### Quotients -/

theorem nearestEven_lt {q : ℚ} {n : ℤ} (h : q < n - 1 / 2) : nearestEven q < n := by
  have hfloor : ⌊q⌋ < n := Int.floor_lt.mpr (h.trans (by linarith))
  rcases (Int.add_one_le_of_lt hfloor).lt_or_eq with hlt | heq
  · exact (nearestEven_le q).trans_lt hlt
  · have hcast : ((⌊q⌋ : ℤ) : ℚ) = n - 1 := by
      rw [← heq]
      push_cast
      ring
    rw [nearestEven, if_pos (by rw [hcast]; linarith)]
    exact hfloor

/-- The floor of the rounded quotient of two integers is the quotient of the integers. -/
theorem floor_round_div {d i : ℕ} (hd : d < 2 ^ 53) (hi : 0 < i) :
    ⌊round ((d : ℚ) / i)⌋ = ((d / i : ℕ) : ℤ) := by
  set q : ℚ := (d : ℚ) / i with hq
  obtain ⟨n, hn⟩ : ∃ n, d / i = n := ⟨_, rfl⟩
  have hle : n * i ≤ d := hn ▸ Nat.div_mul_le_self d i
  have hlt : d + 1 ≤ (n + 1) * i := Nat.lt_mul_of_div_lt (hn ▸ Nat.lt_succ_self _) hi
  rw [hn]
  have hicast : (0 : ℚ) < i := Nat.cast_pos.mpr hi
  have hbelow : (n : ℚ) ≤ q := by
    rw [hq, le_div_iff₀ hicast]
    exact_mod_cast hle
  have hrepresentable : Representable (n : ℚ) :=
    ⟨n, 0, (hn ▸ Nat.div_le_self d i).trans_lt hd, by simp⟩
  have hlow : (n : ℚ) ≤ round q := by
    rw [← round_eq_self hrepresentable]
    exact round_mono hbelow
  refine Int.floor_eq_iff.mpr ⟨by exact_mod_cast hlow, ?_⟩
  rcases (div_nonneg (Nat.cast_nonneg d) hicast.le : 0 ≤ q).lt_or_eq with hpos | hzero
  · -- The quotient stays away from the next integer by more than half of its last digit.
    have hpower : (2 : ℚ) ^ Int.log 2 q * i < 2 ^ (53 : ℤ) := by
      have hlog : (2 : ℚ) ^ Int.log 2 q ≤ q := Int.zpow_log_le_self (b := 2) (by norm_num) hpos
      calc (2 : ℚ) ^ Int.log 2 q * i ≤ q * i := mul_le_mul_of_nonneg_right hlog hicast.le
        _ = d := div_mul_cancel₀ _ hicast.ne'
        _ < 2 ^ (53 : ℤ) := by exact_mod_cast hd
    have habove : q ≤ (n + 1 : ℚ) - 1 / i := by
      rw [hq, le_sub_iff_add_le, ← add_div, div_le_iff₀ hicast]
      exact_mod_cast hlt
    have hlog : Int.log 2 q ≤ 52 := by
      have hsmall : (2 : ℚ) ^ Int.log 2 q < 2 ^ (53 : ℤ) :=
        lt_of_le_of_lt (le_mul_of_one_le_right (two_zpow_pos _).le (by exact_mod_cast hi)) hpower
      have := (zpow_lt_zpow_iff_right₀ (by norm_num : (1 : ℚ) < 2)).mp hsmall
      omega
    obtain ⟨k, hk⟩ := Int.eq_ofNat_of_zero_le (sub_nonneg.mpr hlog)
    have hlast : (2 : ℚ) ^ lastDigit q = ((2 : ℚ) ^ k)⁻¹ := by
      rw [lastDigit_of_pos (hq ▸ hpos), ← zpow_natCast, ← zpow_neg]
      congr 1
      omega
    have hsmall : (i : ℚ) < 2 * 2 ^ k := by
      have hsplit : (2 : ℚ) ^ (53 : ℤ) = 2 ^ Int.log 2 q * (2 * 2 ^ k) := by
        rw [← zpow_natCast, ← zpow_one_add₀ two_ne_zero, ← zpow_add₀ two_ne_zero]
        congr 1
        omega
      rw [hsplit, mul_comm] at hpower
      exact lt_of_mul_lt_mul_right (by linarith) (two_zpow_pos (Int.log 2 q)).le
    have hdigits : q / 2 ^ lastDigit q < ((n + 1) * 2 ^ k : ℤ) - 1 / 2 := by
      have hhalf : 1 / 2 < 1 / (i : ℚ) * 2 ^ k := by
        rw [one_div_mul_eq_div, div_lt_div_iff₀ two_pos hicast]
        linarith
      rw [hlast, div_inv_eq_mul]
      push_cast
      have := mul_le_mul_of_nonneg_right habove (pow_nonneg two_pos.le k)
      linarith
    have hnearest : ((nearestEven (q / 2 ^ lastDigit q) : ℤ) : ℚ) < (n + 1) * 2 ^ k := by
      exact_mod_cast nearestEven_lt hdigits
    rw [round, hlast, Int.cast_natCast, mul_inv_lt_iff₀ (pow_pos two_pos k)]
    rw [hlast] at hnearest
    exact hnearest
  · have hround : round q = 0 := by
      rw [← hzero.trans hq.symm, round_zero]
    rw [hround]
    positivity

end Binary64
