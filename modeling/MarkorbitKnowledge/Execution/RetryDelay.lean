import MarkorbitKnowledge.Execution.WorkerExecution

/-!
# The delay before a retry

`computeExecutionRetryDelayMs`, for every word its digest may give.  The seed divides a word by the
largest word, so that word alone fills the jitter window and one millisecond more; where the window
ends at the cap, the delay is then longer than the cap and longer than the next one.  A back-off of so
many seconds that its milliseconds are infinite has no delay at all.
-/

namespace MarkorbitKnowledge.Execution

/-! ### The base -/

variable {attempt backoffSeconds base jitter next : Nat}

theorem round_product (h : backoffSeconds * 1000 < 2 ^ 53) :
    Binary64.round ((backoffSeconds : ℚ) * 1000) = ((backoffSeconds * 1000 : ℕ) : ℚ) := by
  have hexact : (backoffSeconds : ℚ) * 1000 = ((backoffSeconds * 1000 : ℕ) : ℚ) := by push_cast; ring
  rw [hexact]
  exact Binary64.round_eq_self ⟨backoffSeconds * 1000, 0, h, by simp⟩

/-- Below `2 ^ 53` the product is exact. -/
theorem retryBaseMs_of_lt (h : backoffSeconds * 1000 < 2 ^ 53) :
    retryBaseMs backoffSeconds = some (backoffSeconds * 1000) := by
  have hround := round_product h
  have hfinite : Binary64.IsFinite ((backoffSeconds : ℚ) * 1000) := by
    rw [Binary64.IsFinite, hround, abs_of_nonneg (Nat.cast_nonneg _)]
    calc ((backoffSeconds * 1000 : ℕ) : ℚ) < 2 ^ 53 := by exact_mod_cast h
      _ ≤ 2 ^ 1024 := pow_le_pow_right₀ (by norm_num) (by norm_num)
  simp only [retryBaseMs]
  rw [if_pos hfinite, hround]
  simp only [Int.floor_natCast, Int.toNat_natCast]

theorem retryBaseMs_eq_some :
    retryBaseMs backoffSeconds = some base ↔
      Binary64.IsFinite ((backoffSeconds : ℚ) * 1000) ∧
        ⌊Binary64.round ((backoffSeconds : ℚ) * 1000)⌋.toNat = base := by
  simp only [retryBaseMs, Option.ite_none_right_eq_some, Option.some.injEq]

/-- Rounding does not bring a base below a bound that is itself a double. -/
theorem le_retryBaseMs (h : retryBaseMs backoffSeconds = some base)
    (hlarge : 2 ^ 53 ≤ backoffSeconds * 1000) : 2 ^ 53 ≤ base := by
  obtain ⟨-, hbase⟩ := retryBaseMs_eq_some.mp h
  have hexact : Binary64.round ((2 : ℚ) ^ 53) = 2 ^ 53 :=
    Binary64.round_eq_self ⟨1, 53, by norm_num, by norm_num⟩
  have hmono : (2 : ℚ) ^ 53 ≤ Binary64.round ((backoffSeconds : ℚ) * 1000) := by
    rw [← hexact]
    exact Binary64.round_mono (by exact_mod_cast hlarge)
  have hfloor : (2 ^ 53 : ℤ) ≤ ⌊Binary64.round ((backoffSeconds : ℚ) * 1000)⌋ :=
    Int.le_floor.mpr (by exact_mod_cast hmono)
  omega

/-- A base is exact, or far above the cap. -/
theorem retryBaseMs_cases (h : retryBaseMs backoffSeconds = some base) :
    backoffSeconds * 1000 < 2 ^ 53 ∧ base = backoffSeconds * 1000 ∨
      2 ^ 53 ≤ backoffSeconds * 1000 ∧ 2 ^ 53 ≤ base := by
  by_cases hlt : backoffSeconds * 1000 < 2 ^ 53
  · rw [retryBaseMs_of_lt hlt, Option.some.injEq] at h
    exact Or.inl ⟨hlt, h.symm⟩
  · exact Or.inr ⟨by omega, le_retryBaseMs h (by omega)⟩

/-! ### The exponential part -/

def retryCapMs (base : Nat) : Nat := max base MAX_RETRY_BACKOFF_MS

def exponentialMs (attempt base : Nat) : Nat := min (base * 2 ^ (attempt - 1)) (retryCapMs base)

/-- A quarter of the exponential part, or what is left to the cap. -/
def jitterWindowMs (attempt base : Nat) : Nat :=
  min (exponentialMs attempt base / 4) (retryCapMs base - exponentialMs attempt base)

/-- The clamp of the exponent changes nothing: by then the cap is reached. -/
theorem clamped_exponential (hbase : base = 0 ∨ 1000 ≤ base) (attempt : Nat) :
    min (base * 2 ^ min (attempt - 1) 20) (max base MAX_RETRY_BACKOFF_MS) =
      exponentialMs attempt base := by
  rw [exponentialMs, retryCapMs]
  by_cases hexponent : attempt - 1 ≤ 20
  · rw [min_eq_left hexponent]
  · rw [min_eq_right (by omega : 20 ≤ attempt - 1)]
    rcases hbase with rfl | hlarge
    · simp
    · have hcapped : ∀ power, 2 ^ 20 ≤ power → max base MAX_RETRY_BACKOFF_MS ≤ base * power := by
        intro power hpower
        have hscaled : base * 2 ^ 20 ≤ base * power := Nat.mul_le_mul_left _ hpower
        rw [MAX_RETRY_BACKOFF_MS]
        omega
      rw [min_eq_right (hcapped _ le_rfl),
        min_eq_right (hcapped _ (Nat.pow_le_pow_right two_pos (by omega)))]

theorem exponentialMs_le_cap (attempt base : Nat) : exponentialMs attempt base ≤ retryCapMs base :=
  min_le_right _ _

/-- The next attempt waits twice as long, up to the cap. -/
theorem exponentialMs_succ (hattempt : 0 < attempt) :
    exponentialMs (attempt + 1) base = min (2 * exponentialMs attempt base) (retryCapMs base) := by
  have hpower : 2 ^ (attempt + 1 - 1) = 2 * 2 ^ (attempt - 1) := by
    rw [← Nat.pow_succ']
    congr 1
    omega
  rw [exponentialMs, exponentialMs, hpower, Nat.mul_left_comm]
  omega

/-- A base above the cap leaves no room. -/
theorem exponentialMs_of_large (hbase : MAX_RETRY_BACKOFF_MS ≤ base) (attempt : Nat) :
    exponentialMs attempt base = base ∧ retryCapMs base = base := by
  have hcap : retryCapMs base = base := max_eq_left hbase
  refine ⟨?_, hcap⟩
  rw [exponentialMs, hcap]
  exact min_eq_right (Nat.le_mul_of_pos_right _ (by positivity))

/-! ### The jitter -/

theorem jitterSeed_max : jitterSeed 0xffffffff = 1 := by
  have hone : ((0xffffffff : Nat) : ℚ) / 0xffffffff = 1 := by norm_num
  rw [jitterSeed, hone]
  exact Binary64.round_eq_self ⟨1, 0, by norm_num, by norm_num⟩

/-- Any smaller word leaves the seed a good way below one. -/
theorem jitterSeed_le (hjitter : jitter < 0xffffffff) : jitterSeed jitter ≤ (2 ^ 33 - 1) / 2 ^ 33 := by
  have hexact : Binary64.round ((2 ^ 33 - 1) / 2 ^ 33) = (2 ^ 33 - 1) / 2 ^ 33 :=
    Binary64.round_eq_self ⟨2 ^ 33 - 1, -33, by norm_num, by norm_num⟩
  rw [jitterSeed, ← hexact]
  refine Binary64.round_mono ?_
  have hcast : (jitter : ℚ) ≤ 0xfffffffe := by exact_mod_cast (by omega : jitter ≤ 0xfffffffe)
  rw [div_le_div_iff₀ (by norm_num) (by norm_num)]
  linarith

/-- The jitter of a window. -/
def jitterMs (jitter window : Nat) : Nat :=
  ⌊Binary64.round (jitterSeed jitter * (window + 1))⌋.toNat

theorem jitterMs_max {window : Nat} (hwindow : window < 2 ^ 19) : jitterMs 0xffffffff window = window + 1 := by
  have hexact : Binary64.round ((window : ℚ) + 1) = (window : ℚ) + 1 := by
    refine Binary64.round_eq_self ⟨window + 1, 0, by omega, by push_cast; ring⟩
  rw [jitterMs, jitterSeed_max, one_mul, hexact]
  have hfloor : ⌊(window : ℚ) + 1⌋ = (window + 1 : ℤ) := by exact_mod_cast Int.floor_intCast (window + 1 : ℤ)
  rw [hfloor]
  omega

theorem jitterMs_le {window : Nat} (hwindow : window < 2 ^ 19) (hjitter : jitter < 0xffffffff) :
    jitterMs jitter window ≤ window := by
  -- The product with the largest seed is itself a double, and below `window + 1`.
  set bound : ℚ := (2 ^ 33 - 1) / 2 ^ 33 * (window + 1) with hbound
  have hexact : Binary64.round bound = bound := by
    refine Binary64.round_eq_self ⟨(2 ^ 33 - 1) * (window + 1), -33, by omega, ?_⟩
    rw [hbound]
    push_cast
    ring
  have hround : Binary64.round (jitterSeed jitter * (window + 1)) ≤ bound := by
    rw [← hexact]
    exact Binary64.round_mono
      (mul_le_mul_of_nonneg_right (jitterSeed_le hjitter) (by positivity))
  have hlt : Binary64.round (jitterSeed jitter * (window + 1)) < ((window + 1 : ℤ) : ℚ) := by
    refine hround.trans_lt ?_
    have hpos : (0 : ℚ) < window + 1 := by positivity
    rw [hbound]
    push_cast
    linarith
  have hfloor := Int.floor_lt.mpr hlt
  rw [jitterMs]
  omega

theorem jitterWindowMs_lt (attempt base : Nat) : jitterWindowMs attempt base < 2 ^ 19 := by
  have hle := exponentialMs_le_cap attempt base
  by_cases hbase : MAX_RETRY_BACKOFF_MS ≤ base
  · obtain ⟨hexponential, hcap⟩ := exponentialMs_of_large hbase attempt
    rw [jitterWindowMs, hcap, hexponential]
    simp
  · have hcap : retryCapMs base = MAX_RETRY_BACKOFF_MS := max_eq_right (by omega)
    rw [MAX_RETRY_BACKOFF_MS] at hcap
    rw [jitterWindowMs]
    omega

/-! ### The delay -/

/-- The delay on a finite base. -/
def delayMs (jitter attempt base : Nat) : Nat :=
  if jitterWindowMs attempt base = 0 then exponentialMs attempt base
  else exponentialMs attempt base + jitterMs jitter (jitterWindowMs attempt base)

theorem computeExecutionRetryDelayMs_of_base (h : retryBaseMs backoffSeconds = some base)
    (jitter attempt : Nat) :
    computeExecutionRetryDelayMs jitter attempt backoffSeconds = some (delayMs jitter attempt base) := by
  have hbase : base = 0 ∨ 1000 ≤ base := by
    rcases retryBaseMs_cases h with ⟨-, rfl⟩ | ⟨-, hlarge⟩ <;> omega
  simp only [computeExecutionRetryDelayMs, h, Option.bind_eq_bind, Option.bind_some,
    clamped_exponential hbase]
  rw [delayMs, jitterWindowMs, retryCapMs, jitterMs]
  split <;> rfl

/-- The largest word, where the window reaches from the exponential part to the cap. -/
def Overshoots (jitter attempt base : Nat) : Prop :=
  jitter = 0xffffffff ∧ exponentialMs attempt base < retryCapMs base ∧
    retryCapMs base - exponentialMs attempt base ≤ exponentialMs attempt base / 4

instance (jitter attempt base : Nat) : Decidable (Overshoots jitter attempt base) :=
  inferInstanceAs (Decidable (_ ∧ _))

theorem not_overshoots_of_large (hbase : MAX_RETRY_BACKOFF_MS ≤ base) :
    ¬ Overshoots jitter attempt base := by
  rintro ⟨-, hlt, -⟩
  obtain ⟨hexponential, hcap⟩ := exponentialMs_of_large hbase attempt
  omega

/-- Whether a delay overshoots is decided by the exact product. -/
theorem overshoots_iff (h : retryBaseMs backoffSeconds = some base) :
    Overshoots jitter attempt base ↔ Overshoots jitter attempt (backoffSeconds * 1000) := by
  rcases retryBaseMs_cases h with ⟨-, rfl⟩ | ⟨hexact, hlarge⟩
  · rfl
  · exact iff_of_false (not_overshoots_of_large (by rw [MAX_RETRY_BACKOFF_MS]; omega))
      (not_overshoots_of_large (by rw [MAX_RETRY_BACKOFF_MS]; omega))

theorem exponentialMs_le_delay (jitter attempt base : Nat) :
    exponentialMs attempt base ≤ delayMs jitter attempt base := by
  rw [delayMs]
  split
  · exact le_rfl
  · exact Nat.le_add_right _ _

theorem delay_of_overshoots (h : Overshoots jitter attempt base) :
    delayMs jitter attempt base = retryCapMs base + 1 := by
  obtain ⟨rfl, hlt, hle⟩ := h
  have hwindow : jitterWindowMs attempt base = retryCapMs base - exponentialMs attempt base :=
    min_eq_right hle
  rw [delayMs, if_neg (by omega), jitterMs_max (jitterWindowMs_lt _ _), hwindow]
  omega

/-- Where nothing overshoots, a delay ends before the cap and before the next exponential part. -/
theorem delay_le_of_not_overshoots (hattempt : 0 < attempt) (hjitter : jitter < 2 ^ 32)
    (h : ¬ Overshoots jitter attempt base) :
    delayMs jitter attempt base ≤ retryCapMs base ∧
      delayMs jitter attempt base ≤ exponentialMs (attempt + 1) base := by
  have hcap := exponentialMs_le_cap attempt base
  have hsmall := jitterWindowMs_lt attempt base
  rw [exponentialMs_succ hattempt, delayMs]
  by_cases hwindow : jitterWindowMs attempt base = 0
  · rw [if_pos hwindow]
    omega
  · rw [if_neg hwindow]
    by_cases hmax : jitter = 0xffffffff
    · -- The largest word goes one past a window that ends before the cap.
      subst hmax
      have hinside : exponentialMs attempt base / 4 <
          retryCapMs base - exponentialMs attempt base := by
        by_contra hreaches
        rw [jitterWindowMs] at hwindow
        exact h ⟨rfl, by omega, by omega⟩
      rw [jitterMs_max hsmall, jitterWindowMs, min_eq_left hinside.le]
      rw [jitterWindowMs, min_eq_left hinside.le] at hwindow
      omega
    · have hjitterMs := jitterMs_le hsmall (by omega : jitter < 0xffffffff)
      rw [jitterWindowMs] at hjitterMs ⊢
      omega

/-- The delay of an attempt is a number between its exponential part and the cap, and at most the delay
    of the next attempt, if and only if the base is finite and the delay does not overshoot. -/
theorem retryDelay_iff (backoffSeconds attempt jitter next : Nat) (hattempt : 0 < attempt)
    (hjitter : jitter < 2 ^ 32) :
    (∃ base delay nextDelay, retryBaseMs backoffSeconds = some base ∧
        computeExecutionRetryDelayMs jitter attempt backoffSeconds = some delay ∧
        computeExecutionRetryDelayMs next (attempt + 1) backoffSeconds = some nextDelay ∧
        (min (base * 2 ^ (attempt - 1)) (max base (30 * 60000)) ≤ delay ∧
          delay ≤ max base (30 * 60000)) ∧ delay ≤ nextDelay) ↔
      Binary64.IsFinite ((backoffSeconds : ℚ) * 1000) ∧
        ¬ Overshoots jitter attempt (backoffSeconds * 1000) := by
  constructor
  · rintro ⟨base, delay, nextDelay, hbase, hdelay, -, ⟨-, hle⟩, -⟩
    rw [computeExecutionRetryDelayMs_of_base hbase, Option.some.injEq] at hdelay
    refine ⟨(retryBaseMs_eq_some.mp hbase).1, fun hovershoots => ?_⟩
    have hover := delay_of_overshoots ((overshoots_iff hbase).mpr hovershoots)
    have hcap : retryCapMs base = max base (30 * 60000) := rfl
    omega
  · rintro ⟨hfinite, hnot⟩
    have hbase := retryBaseMs_eq_some.mpr ⟨hfinite, rfl⟩
    obtain ⟨hcap, hgrows⟩ := delay_le_of_not_overshoots hattempt hjitter
      (mt (overshoots_iff hbase).mp hnot)
    exact ⟨_, _, _, hbase, computeExecutionRetryDelayMs_of_base hbase jitter attempt,
      computeExecutionRetryDelayMs_of_base hbase next (attempt + 1),
      ⟨exponentialMs_le_delay jitter attempt _, hcap⟩,
      hgrows.trans (exponentialMs_le_delay next (attempt + 1) _)⟩

theorem isFinite_seconds (h : backoffSeconds * 1000 < 2 ^ 53) :
    Binary64.IsFinite ((backoffSeconds : ℚ) * 1000) :=
  (retryBaseMs_eq_some.mp (retryBaseMs_of_lt h)).1

/-- A job that waits ten seconds for its second try. -/
theorem retryDelay_ten_seconds :
    ∃ base delay nextDelay, retryBaseMs 10 = some base ∧
      computeExecutionRetryDelayMs 0xffffffff 1 10 = some delay ∧
      computeExecutionRetryDelayMs 0 (1 + 1) 10 = some nextDelay ∧
      (min (base * 2 ^ (1 - 1)) (max base (30 * 60000)) ≤ delay ∧
        delay ≤ max base (30 * 60000)) ∧ delay ≤ nextDelay :=
  (retryDelay_iff 10 1 0xffffffff 0 (by decide) (by decide)).mpr
    ⟨isFinite_seconds (by decide), by decide⟩

/-- With a base of 25 minutes the largest word gives a delay above the cap, and a longer one than the
    next attempt's. -/
theorem retryDelay_over_cap :
    computeExecutionRetryDelayMs 0xffffffff 1 1500 = some 1800001 ∧
      computeExecutionRetryDelayMs 0xffffffff 2 1500 = some 1800000 := by
  decide +kernel

end MarkorbitKnowledge.Execution
