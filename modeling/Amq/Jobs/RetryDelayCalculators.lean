import Amq.Jobs.JobServer
import Mathlib.Data.Rat.Floor

/-!
# The provided retry delay calculators

Both calculators limit a growing number to `min` and `max`, but only one of them
rounds it, while `calculateRetryDelayMs` takes nothing but positive integers.
The arithmetic is that of the rational numbers.
-/

namespace Amq.Jobs

/-- `Number.MIN_SAFE_INTEGER`. -/
def minSafeInteger : ℚ :=
  -(2 ^ 53 - 1)

/-- `Number.MAX_SAFE_INTEGER`. -/
def maxSafeInteger : ℚ :=
  2 ^ 53 - 1

/-- A bound of the options, if it is a finite number. -/
def boundOr (bound : Option JsNumber) (default : ℚ) : ℚ :=
  match bound with
  | some (.finite value) => value
  | _ => default

/-- `Math.min(max, Math.max(min, result))`. -/
def limited (min max result : ℚ) : ℚ :=
  Min.min max (Max.max min result)

structure LinearRetryDelayCalculatorOptions where
  base : ℚ
  min : Option JsNumber
  max : Option JsNumber

structure LinearRetryDelayCalculator where
  base : ℚ
  min : ℚ
  max : ℚ

namespace LinearRetryDelayCalculator

def create (options : LinearRetryDelayCalculatorOptions) :
    LinearRetryDelayCalculator where
  base := options.base
  min := boundOr options.min minSafeInteger
  max := boundOr options.max maxSafeInteger

def calculate (calculator : LinearRetryDelayCalculator) (attempt : ℤ) : ℚ :=
  let result := calculator.base * attempt
  limited calculator.min calculator.max result

end LinearRetryDelayCalculator

structure ExponentialRetryDelayCalculatorOptions where
  base : ℚ
  multiplier : ℚ
  min : Option JsNumber
  max : Option JsNumber

structure ExponentialRetryDelayCalculator where
  base : ℚ
  multiplier : ℚ
  min : ℚ
  max : ℚ

namespace ExponentialRetryDelayCalculator

def create (options : ExponentialRetryDelayCalculatorOptions) :
    ExponentialRetryDelayCalculator where
  base := options.base
  multiplier := options.multiplier
  min := boundOr options.min minSafeInteger
  max := boundOr options.max maxSafeInteger

def calculate (calculator : ExponentialRetryDelayCalculator) (attempt : ℤ) :
    ℚ :=
  let result := calculator.base ^ (attempt - 1) * calculator.multiplier
  ⌊limited calculator.min calculator.max result⌋

end ExponentialRetryDelayCalculator

/-- A provided calculator as the manager calls it.  The attempt of a message is
read as a number by the arithmetic. -/
def provided {V : Type} (calculate : ℤ → ℚ) (toNumber : V → ℤ) :
    RetryDelayCalculator V :=
  fun attempt => some (.finite (calculate (toNumber attempt)))

/-- The manager calls this calculator for the job, which is the one of its
handler or the default one. -/
def JobHandlerManager.Uses {V : Type} (manager : JobHandlerManager V) (job : V)
    (calculator : RetryDelayCalculator V) : Prop :=
  (∃ handler, manager.jobHandlers job = some (.object handler) ∧
      handler.retryDelayCalculator = some calculator) ∨
    (manager.defaultRetryDelayCalculator = calculator ∧
      ∀ handler, manager.jobHandlers job = some (.object handler) →
        handler.retryDelayCalculator = none)

/-- What a calculator should return for an attempt, at most `max`: the manager
accepts it, and a retry that computes its own delay goes on to publish the next
attempt. -/
structure AcceptableDelay (calculate : ℤ → ℚ) (max : ℚ) (attempt : ℤ) :
    Prop where
  at_least : 1 ≤ calculate attempt
  at_most : calculate attempt ≤ max
  grows : ∀ later, attempt ≤ later → calculate attempt ≤ calculate later
  positive_integer : ∃ delay : ℕ, 0 < delay ∧ calculate attempt = delay
  accepted :
    ∀ (V : Type) (operators : JsOperators V) (manager : JobHandlerManager V)
      (toNumber : V → ℤ) (job value : V),
      toNumber value = attempt →
        manager.Uses job (provided calculate toNumber) →
          manager.calculateRetryDelayMs operators job value =
            .ok (.finite (calculate attempt))
  published :
    ∀ (V κ : Type) (operators : JsOperators V) (manager : JobHandlerManager V)
      (toNumber : V → ℤ) (scheduler : Scheduler κ V) (options : RetryOptions V)
      (nextAttempt : V),
      manager.Uses scheduler.job (provided calculate toNumber) →
        toNumber (scheduler.currentAttempt operators options) = attempt →
          options.retryDelayMs = none → scheduler.isDiscarded = false →
            operators.addOne (scheduler.currentAttempt operators options) =
                some nextAttempt →
              manager.isExceedingMaxAttemptCount operators scheduler.job
                  nextAttempt = some false →
                scheduler.retry operators manager options =
                  .creating nextAttempt (.finite (calculate attempt))

/-- The number that `base * attempt` is limited to is whole. -/
structure LimitIsWhole (base min max : ℚ) (attempt : ℤ) : Prop where
  above : max ≤ min ∨ max ≤ base * attempt → max.isInt = true
  below : min < max → base * attempt ≤ min → min.isInt = true
  between : min < base * attempt → base * attempt < max →
    (base * attempt).isInt = true

/-! ## Limits -/

theorem limited_mono (min max : ℚ) : Monotone (limited min max) := by
  intro earlier later atMost
  exact min_le_min_left max (max_le_max_left min atMost)

theorem limited_le (min max result : ℚ) : limited min max result ≤ max :=
  min_le_left _ _

theorem le_limited
    {min max bound : ℚ} (below_min : bound ≤ min) (below_max : bound ≤ max)
    (result : ℚ) : bound ≤ limited min max result :=
  le_min below_max (le_max_of_le_left below_min)

/-- A limited number is the upper limit, the lower one or itself. -/
theorem limited_isInt_iff (base min max : ℚ) (attempt : ℤ) :
    (limited min max (base * attempt)).isInt = true ↔
      LimitIsWhole base min max attempt := by
  unfold limited
  by_cases above : max ≤ min ∨ max ≤ base * attempt
  · have upper : Min.min max (Max.max min (base * attempt)) = max :=
      min_eq_left (le_max_iff.mpr above)
    rw [upper]
    constructor
    · intro whole
      refine ⟨fun _ => whole, ?_, ?_⟩
      · intro ordered beneath
        rcases above with crossed | reached
        · exact absurd ordered (not_lt.mpr crossed)
        · exact absurd (lt_of_lt_of_le ordered reached) (not_lt.mpr beneath)
      · intro higher under
        rcases above with crossed | reached
        · exact absurd (higher.trans under) (not_lt.mpr crossed)
        · exact absurd under (not_lt.mpr reached)
    · intro whole
      exact whole.above above
  · obtain ⟨ordered, under⟩ := not_or.mp above
    rw [not_le] at ordered under
    have unlimited :
        Min.min max (Max.max min (base * attempt)) =
          Max.max min (base * attempt) :=
      min_eq_right (max_le ordered.le under.le)
    rw [unlimited]
    by_cases beneath : base * attempt ≤ min
    · rw [max_eq_left beneath]
      constructor
      · intro whole
        refine ⟨fun either => absurd either above, fun _ _ => whole, ?_⟩
        intro higher
        exact absurd higher (not_lt.mpr beneath)
      · intro whole
        exact whole.below ordered beneath
    · rw [not_le] at beneath
      rw [max_eq_right beneath.le]
      constructor
      · intro whole
        refine ⟨fun either => absurd either above, ?_, fun _ _ => whole⟩
        intro _ atMost
        exact absurd beneath (not_lt.mpr atMost)
      · intro whole
        exact whole.between beneath under

/-! ## What the manager accepts -/

section Manager

variable {V : Type} {manager : JobHandlerManager V} {job : V}
variable {calculator : RetryDelayCalculator V}

theorem JobHandlerManager.calculateRetryDelayMs_of_uses
    (uses : manager.Uses job calculator) {value : V} {retryDelayMs : JsNumber}
    (calculated : calculator value = some retryDelayMs)
    (isInteger : retryDelayMs.isInteger = true)
    (positive : retryDelayMs.lessThan (.ofNat 1) = false)
    (operators : JsOperators V) :
    manager.calculateRetryDelayMs operators job value = .ok retryDelayMs := by
  have accepted :
      ¬ (!retryDelayMs.isInteger || retryDelayMs.lessThan (.ofNat 1)) = true := by
    rw [isInteger, positive]
    decide
  unfold calculateRetryDelayMs
  rcases uses with ⟨handler, present, itsCalculator⟩ | ⟨default, without⟩
  · simp only [present, itsCalculator, Option.getD_some, calculated]
    exact if_neg accepted
  · cases present : manager.jobHandlers job with
    | none =>
        simp only [Option.getD_none, default, calculated]
        exact if_neg accepted
    | some kind =>
        cases kind with
        | function =>
            simp only [Option.getD_none, default, calculated]
            exact if_neg accepted
        | object handler =>
            have itsCalculator := without handler present
            simp only [itsCalculator, Option.getD_none, default, calculated]
            exact if_neg accepted

end Manager

theorem isInt_iff_exists_nat {value : ℚ} (at_least : 1 ≤ value) :
    value.isInt = true ↔ ∃ number : ℕ, 0 < number ∧ value = number := by
  constructor
  · intro whole
    have itself : ((value.num : ℤ) : ℚ) = value :=
      Rat.coe_int_num_of_den_eq_one (by simpa [Rat.isInt] using whole)
    have positive : 0 < value.num := by
      have above : (0 : ℚ) < value := lt_of_lt_of_le one_pos at_least
      exact Rat.num_pos.mpr above
    obtain ⟨number, same⟩ := Int.eq_ofNat_of_zero_le positive.le
    refine ⟨number, ?_, ?_⟩
    · omega
    · rw [← itself, same]
      norm_cast
  · rintro ⟨number, -, rfl⟩
    rfl

/-- A number within the limits is an acceptable delay exactly if it is whole. -/
theorem acceptableDelay_iff
    {calculate : ℤ → ℚ} {max : ℚ} {attempt : ℤ}
    (at_least : 1 ≤ calculate attempt) (at_most : calculate attempt ≤ max)
    (grows : ∀ later, attempt ≤ later → calculate attempt ≤ calculate later) :
    AcceptableDelay calculate max attempt ↔
      (calculate attempt).isInt = true := by
  constructor
  · intro acceptable
    exact (isInt_iff_exists_nat at_least).mpr acceptable.positive_integer
  · intro whole
    have positive :
        (JsNumber.finite (calculate attempt)).lessThan (.ofNat 1) = false := by
      have bound : ¬ calculate attempt < ((1 : ℕ) : ℚ) := by
        rw [Nat.cast_one]
        exact not_lt.mpr at_least
      exact decide_eq_false bound
    have isInteger :
        (JsNumber.finite (calculate attempt)).isInteger = true := by
      simpa [JsNumber.isInteger, Rat.isInt] using whole
    have accepted {V : Type} (operators : JsOperators V)
        (manager : JobHandlerManager V) (toNumber : V → ℤ) (job value : V)
        (read : toNumber value = attempt)
        (uses : manager.Uses job (provided calculate toNumber)) :
        manager.calculateRetryDelayMs operators job value =
          .ok (.finite (calculate attempt)) := by
      have calculated :
          provided calculate toNumber value =
            some (.finite (calculate attempt)) := by
        unfold provided
        rw [read]
      exact manager.calculateRetryDelayMs_of_uses uses calculated isInteger
        positive operators
    refine ⟨at_least, at_most, grows, ?_, ?_, ?_⟩
    · exact (isInt_iff_exists_nat at_least).mp whole
    · intro V operators manager toNumber job value read uses
      exact accepted operators manager toNumber job value read uses
    · intro V κ operators manager toNumber scheduler options nextAttempt uses
        read noDelay active added further
      have delay :
          scheduler.retryDelay operators manager options =
            .ok (.finite (calculate attempt)) := by
        unfold Scheduler.retryDelay
        rw [noDelay]
        exact accepted operators manager toNumber _ _ read uses
      unfold Scheduler.retry
      simp only [active, Bool.false_eq_true, if_false, added, further, delay]

/-! ## The delays of the calculators -/

section Delays

variable {base multiplier min max : ℚ}

theorem one_le_limited_floor
    (one_le_min : 1 ≤ min) (one_le_max : 1 ≤ max) (result : ℚ) :
    (1 : ℚ) ≤ ⌊limited min max result⌋ := by
  have above : ((1 : ℤ) : ℚ) ≤ limited min max result := by
    rw [Int.cast_one]
    exact le_limited one_le_min one_le_max result
  have floored : 1 ≤ ⌊limited min max result⌋ := Int.le_floor.mpr above
  exact_mod_cast floored

theorem LinearRetryDelayCalculator.calculate_mono
    (positive : 0 < base) {earlier later : ℤ} (atMost : earlier ≤ later) :
    calculate ⟨base, min, max⟩ earlier ≤ calculate ⟨base, min, max⟩ later := by
  have cast : (earlier : ℚ) ≤ later := Int.cast_le.mpr atMost
  exact limited_mono min max (mul_le_mul_of_nonneg_left cast positive.le)

theorem ExponentialRetryDelayCalculator.calculate_mono
    (one_le_base : 1 ≤ base) (positive : 0 < multiplier) {earlier later : ℤ}
    (atMost : earlier ≤ later) :
    calculate ⟨base, multiplier, min, max⟩ earlier ≤
      calculate ⟨base, multiplier, min, max⟩ later := by
  have power : base ^ (earlier - 1) ≤ base ^ (later - 1) :=
    zpow_le_zpow_right₀ one_le_base (Int.sub_le_sub_right atMost 1)
  have result : base ^ (earlier - 1) * multiplier ≤
      base ^ (later - 1) * multiplier :=
    mul_le_mul_of_nonneg_right power positive.le
  exact Int.cast_le.mpr (Int.floor_mono (limited_mono min max result))

theorem LinearRetryDelayCalculator.acceptableDelay_iff
    (positive : 0 < base) (one_le_min : 1 ≤ min) (one_le_max : 1 ≤ max)
    (attempt : ℤ) :
    AcceptableDelay (calculate ⟨base, min, max⟩) max attempt ↔
      LimitIsWhole base min max attempt := by
  have at_least : 1 ≤ calculate ⟨base, min, max⟩ attempt :=
    le_limited one_le_min one_le_max _
  have at_most : calculate ⟨base, min, max⟩ attempt ≤ max :=
    limited_le min max _
  rw [Jobs.acceptableDelay_iff at_least at_most
    (fun later atMost => calculate_mono positive atMost)]
  exact limited_isInt_iff base min max attempt

theorem ExponentialRetryDelayCalculator.acceptableDelay
    (one_le_base : 1 ≤ base) (positive : 0 < multiplier)
    (one_le_min : 1 ≤ min) (one_le_max : 1 ≤ max) (attempt : ℤ) :
    AcceptableDelay (calculate ⟨base, multiplier, min, max⟩) max attempt := by
  have at_least : 1 ≤ calculate ⟨base, multiplier, min, max⟩ attempt :=
    one_le_limited_floor one_le_min one_le_max _
  have at_most : calculate ⟨base, multiplier, min, max⟩ attempt ≤ max :=
    le_trans (Int.floor_le _) (limited_le min max _)
  refine (Jobs.acceptableDelay_iff at_least at_most
    (fun later atMost => calculate_mono one_le_base positive atMost)).mpr ?_
  rfl

end Delays

/-- The largest delay that these options allow. -/
def largestDelay (max : Option ℚ) : ℚ :=
  max.getD maxSafeInteger

theorem boundOr_finite (max : Option ℚ) :
    boundOr (max.map .finite) maxSafeInteger = largestDelay max := by
  cases max with
  | none => rfl
  | some max => rfl

theorem one_le_largestDelay
    {min : ℚ} {max : Option ℚ} (one_le_min : 1 ≤ min)
    (min_le_max : ∀ bound, max = some bound → min ≤ bound) :
    1 ≤ largestDelay max := by
  cases max with
  | none =>
      unfold largestDelay maxSafeInteger
      norm_num
  | some bound => exact le_trans one_le_min (min_le_max bound rfl)

/-- An exponential calculator always returns an acceptable delay.  A linear one
does so exactly if the number that it limits `base * attempt` to is whole. -/
theorem provided_delays_acceptable_iff
    (min : ℚ) (max : Option ℚ) (attempt : ℤ)
    (one_le_min : 1 ≤ min)
    (min_le_max : ∀ bound, max = some bound → min ≤ bound) :
    (∀ base : ℚ, 0 < base →
        (AcceptableDelay
            (LinearRetryDelayCalculator.create
              ⟨base, some (.finite min), max.map .finite⟩).calculate
            (largestDelay max) attempt ↔
          LimitIsWhole base min (largestDelay max) attempt)) ∧
      ∀ base multiplier : ℚ, 1 ≤ base → 0 < multiplier →
        AcceptableDelay
          (ExponentialRetryDelayCalculator.create
            ⟨base, multiplier, some (.finite min), max.map .finite⟩).calculate
          (largestDelay max) attempt := by
  have one_le_max := one_le_largestDelay one_le_min min_le_max
  constructor
  · intro base positive
    unfold LinearRetryDelayCalculator.create
    rw [boundOr_finite]
    exact LinearRetryDelayCalculator.acceptableDelay_iff positive one_le_min
      one_le_max attempt
  · intro base multiplier one_le_base positive
    unfold ExponentialRetryDelayCalculator.create
    rw [boundOr_finite]
    exact ExponentialRetryDelayCalculator.acceptableDelay one_le_base positive
      one_le_min one_le_max attempt

theorem provided_delays_acceptable_iff_firstAttempt :
    (∀ base : ℚ, 0 < base →
        (AcceptableDelay
            (LinearRetryDelayCalculator.create
              ⟨base, some (.finite 1000), some (.finite 10000)⟩).calculate
            10000 1 ↔
          LimitIsWhole base 1000 10000 1)) ∧
      ∀ base multiplier : ℚ, 1 ≤ base → 0 < multiplier →
        AcceptableDelay
          (ExponentialRetryDelayCalculator.create
            ⟨base, multiplier, some (.finite 1000),
              some (.finite 10000)⟩).calculate
          10000 1 :=
  provided_delays_acceptable_iff 1000 (some 10000) 1 (by norm_num)
    (by
      intro bound same
      cases same
      norm_num)

/-- The first delay is a millisecond and a half, which the manager refuses. -/
theorem fractionalBase_refused :
    ¬ ∀ (base min max : ℚ) (attempt : ℤ), 0 < base → 1 ≤ min → min ≤ max →
        1 ≤ attempt →
        AcceptableDelay
          (LinearRetryDelayCalculator.create
            ⟨base, some (.finite min), some (.finite max)⟩).calculate
          max attempt := by
  intro always
  have acceptable :=
    always (3 / 2) 1 10000 1 (by norm_num) (by norm_num) (by norm_num)
      (by norm_num)
  have calculated :
      (LinearRetryDelayCalculator.create
        ⟨3 / 2, some (.finite 1), some (.finite 10000)⟩).calculate 1 = 3 / 2 := by
    decide +kernel
  have whole := (isInt_iff_exists_nat acceptable.at_least).mpr
    acceptable.positive_integer
  rw [calculated] at whole
  exact absurd whole (by decide +kernel)

end Amq.Jobs
