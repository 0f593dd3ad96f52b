import Mathlib.Algebra.Ring.Nat
import W65C02.Device.IntervalTimer
import W65C02.Proofs.Interrupt.Lines

/-!
# The interval timer in closed form

What a number of clocks makes of a timer can be told without counting them. The counter runs down
to zero, and the clock after that is an underflow. One-shot mode ends there. Otherwise the counter
goes on from the latch, and from there on it repeats itself with a period of one clock more than
the latch holds, since zero takes a clock as well. How the clocks are divided into ticks makes no
difference.
-/

namespace W65C02

/-- A second request makes no difference. -/
theorem Lines.request_request_irq (lines : Lines) (source : String) :
    (lines.request source .irq).request source .irq = lines.request source .irq := by
  have hsources : (lines.irqSources.insert source).insert source = lines.irqSources.insert source :=
    SourceSet.ext_contains fun name => by
      simp only [SourceSet.contains_insert, Bool.or_self_left]
  exact congrArg (fun sources => { lines with irqSources := sources }) hsources

namespace IntervalTimer

/-- The lines after an underflow: the timer requests an interrupt, if that is enabled. -/
def notify (t : IntervalTimer) (lines : Lines) : Lines :=
  if t.control &&& Timer.irqEnable != 0 then lines.request t.name .irq else lines

/-- The timer after a number of ticks of so many clocks each, and the lines. -/
def ticks (t : IntervalTimer) (lines : Lines) (parts : List ℕ) : IntervalTimer × Lines :=
  parts.foldl (fun state clocks => state.1.tick state.2 clocks) (t, lines)

variable (t : IntervalTimer) (lines : Lines)

/-- A second notification changes nothing. -/
theorem notify_notify : t.notify (t.notify lines) = t.notify lines := by
  unfold notify
  split
  · exact lines.request_request_irq t.name
  · rfl

/-- A timer that is stopped does nothing. -/
theorem countDown_of_stopped (hrun : t.isRunning = false) : t.countDown lines = (t, lines) := by
  simp only [countDown, hrun, Bool.not_false, if_true]

/-- Without its control bit the timer is stopped. -/
theorem isRunning_of_control {control : UInt8} (h : t.control = control &&& ~~~Timer.run) :
    t.isRunning = false := by
  have hnone : ~~~Timer.run &&& Timer.run = 0 := by decide
  rw [isRunning, h, UInt8.and_assoc, hnone, UInt8.and_zero]
  rfl

/-- A running timer counts down until it is at zero. -/
theorem countDown_of_isRunning (hrun : t.isRunning = true) (hcounter : t.counter > 0) :
    t.countDown lines = ({ t with counter := t.counter - 1 }, lines) := by
  simp only [countDown, hrun, Bool.not_true, Bool.false_eq_true, if_false, if_pos hcounter]

/-- A running timer that is at zero starts again from the latch. -/
theorem countDown_of_underflow (hrun : t.isRunning = true) (hcounter : t.counter = 0) :
    t.countDown lines =
      ({ t with
          underflow := true
          counter := t.latch
          control :=
            if t.control &&& Timer.continuous == 0 then t.control &&& ~~~Timer.run
            else t.control },
        t.notify lines) := by
  have hzero : ¬ t.counter > 0 := by rw [hcounter]; decide
  simp only [countDown, hrun, Bool.not_true, Bool.false_eq_true, if_false, if_neg hzero]
  rfl

/-- In one-shot mode an underflow stops the timer. -/
theorem countDown_of_underflow_oneShot (hrun : t.isRunning = true) (hcounter : t.counter.toNat = 0)
    (honeShot : t.control &&& Timer.continuous = 0) :
    t.countDown lines =
      ({ t with underflow := true, counter := t.latch, control := t.control &&& ~~~Timer.run },
        t.notify lines) := by
  rw [t.countDown_of_underflow lines hrun (UInt16.toNat_inj.mp hcounter)]
  simp only [honeShot, beq_self_eq_true, if_true]

/-- In continuous mode the timer runs on after an underflow. -/
theorem countDown_of_underflow_continuous (hrun : t.isRunning = true)
    (hcounter : t.counter.toNat = 0) (hcontinuous : t.control &&& Timer.continuous ≠ 0) :
    t.countDown lines =
      ({ t with underflow := true, counter := t.latch }, t.notify lines) := by
  have hkept : (t.control &&& Timer.continuous == 0) = false := beq_eq_false_iff_ne.mpr hcontinuous
  rw [t.countDown_of_underflow lines hrun (UInt16.toNat_inj.mp hcounter)]
  simp only [hkept, Bool.false_eq_true, if_false]

/-- A clock either leaves the lines alone or is an underflow. -/
theorem lines_countDown :
    (t.countDown lines).2 = lines ∨ (t.countDown lines).2 = t.notify lines := by
  cases hrun : t.isRunning with
  | false =>
    rw [t.countDown_of_stopped lines hrun]
    exact .inl rfl
  | true =>
    by_cases hcounter : t.counter = 0
    · rw [t.countDown_of_underflow lines hrun hcounter]
      exact .inr rfl
    · rw [t.countDown_of_isRunning lines hrun (UInt16.pos_iff_ne_zero.mpr hcounter)]
      exact .inl rfl

/-- The last clock comes after all the others. -/
theorem tick_succ (n : ℕ) :
    t.tick lines (n + 1) = (t.tick lines n).1.countDown (t.tick lines n).2 :=
  t.tick_add lines n 1

/-- How a number of clocks is divided into ticks makes no difference. -/
theorem ticks_eq_tick (parts : List ℕ) : t.ticks lines parts = t.tick lines parts.sum := by
  induction parts generalizing t lines with
  | nil => rfl
  | cons first rest ih =>
    rw [List.sum_cons, tick_add]
    exact ih (t.tick lines first).1 (t.tick lines first).2

/-- What a number of clocks has made of a timer and the lines. -/
structure HasElapsed (n : ℕ) (after : IntervalTimer × Lines) : Prop where
  /-- Nothing changes while the timer is stopped. -/
  stopped : t.isRunning = false → after = (t, lines)
  /-- Only the counter changes until it is at zero. -/
  counting : t.isRunning = true → n ≤ t.counter.toNat →
    ∃ counter : UInt16, counter.toNat = t.counter.toNat - n ∧
      after = ({ t with counter }, lines)
  /-- In one-shot mode the underflow stops the timer, with the counter at the latch. -/
  oneShot : t.isRunning = true → t.counter.toNat < n → t.control &&& Timer.continuous = 0 →
    after = ({ t with
      underflow := true
      counter := t.latch
      control := t.control &&& ~~~Timer.run }, t.notify lines)
  /-- In continuous mode the timer runs on, and the counter repeats itself. -/
  continuous : t.isRunning = true → t.counter.toNat < n → t.control &&& Timer.continuous ≠ 0 →
    ∃ counter : UInt16,
      counter.toNat = t.latch.toNat - (n - t.counter.toNat - 1) % (t.latch.toNat + 1) ∧
        after = ({ t with underflow := true, counter }, t.notify lines)

namespace HasElapsed

variable {t lines} {n : ℕ} {after : IntervalTimer × Lines}

/-- At first nothing has elapsed. -/
theorem start : t.HasElapsed lines 0 (t, lines) where
  stopped _ := rfl
  counting _ _ := ⟨t.counter, rfl, rfl⟩
  oneShot _ hdue := absurd hdue (Nat.not_lt_zero _)
  continuous _ hdue := absurd hdue (Nat.not_lt_zero _)

/-- What remains of the latch goes down by one, or starts again after zero. -/
private theorem sub_add_one_mod (latch m : ℕ) :
    latch - (m + 1) % (latch + 1) =
      if latch - m % (latch + 1) = 0 then latch else latch - m % (latch + 1) - 1 := by
  have hlt : m % (latch + 1) < latch + 1 := Nat.mod_lt m (Nat.succ_pos latch)
  rw [← Nat.mod_add_mod]
  split
  · next hend =>
    have hlast : m % (latch + 1) = latch := by omega
    rw [hlast, Nat.mod_self, Nat.sub_zero]
  · next hnot =>
    rw [Nat.mod_eq_of_lt (by omega)]
    omega

/-- Counting down from a positive number does not wrap around. -/
theorem toNat_sub_one {counter : UInt16} (h : 0 < counter.toNat) :
    (counter - 1).toNat = counter.toNat - 1 :=
  UInt16.toNat_sub_of_le _ _ (UInt16.le_iff_toNat_le.mpr h)

/-- One clock more. -/
theorem countDown (h : t.HasElapsed lines n after) :
    t.HasElapsed lines (n + 1) (after.1.countDown after.2) where
  stopped hstopped := by
    rw [h.stopped hstopped]
    exact t.countDown_of_stopped lines hstopped
  counting hrun hle := by
    obtain ⟨counter, hcounter, rfl⟩ := h.counting hrun (by omega)
    have hpositive : 0 < counter.toNat := by omega
    refine ⟨counter - 1, ?_, ?_⟩
    · rw [toNat_sub_one hpositive]
      omega
    · exact countDown_of_isRunning { t with counter } lines hrun
        (UInt16.lt_iff_toNat_lt.mpr hpositive)
  oneShot hrun hdue honeShot := by
    by_cases hbefore : t.counter.toNat < n
    · -- The underflow was before, and the timer is stopped.
      obtain rfl := h.oneShot hrun hbefore honeShot
      exact countDown_of_stopped _ _ (isRunning_of_control _ rfl)
    · obtain ⟨counter, hcounter, rfl⟩ := h.counting hrun (by omega)
      have hend : counter.toNat = 0 := by omega
      exact countDown_of_underflow_oneShot { t with counter } lines hrun hend honeShot
  continuous hrun hdue hcontinuous := by
    by_cases hbefore : t.counter.toNat < n
    · obtain ⟨counter, hcounter, rfl⟩ := h.continuous hrun hbefore hcontinuous
      have hclocks : n + 1 - t.counter.toNat - 1 = n - t.counter.toNat - 1 + 1 := by omega
      rw [hclocks, sub_add_one_mod, ← hcounter]
      by_cases hend : counter.toNat = 0
      · refine ⟨t.latch, (if_pos hend).symm, ?_⟩
        rw [countDown_of_underflow_continuous { t with underflow := true, counter } _ hrun hend
          hcontinuous]
        exact congrArg (Prod.mk _) (t.notify_notify lines)
      · have hpositive : 0 < counter.toNat := Nat.pos_of_ne_zero hend
        refine ⟨counter - 1, ?_, ?_⟩
        · rw [if_neg hend, toNat_sub_one hpositive]
        · exact countDown_of_isRunning { t with underflow := true, counter } _ hrun
            (UInt16.lt_iff_toNat_lt.mpr hpositive)
    · obtain ⟨counter, hcounter, rfl⟩ := h.counting hrun (by omega)
      have hend : counter.toNat = 0 := by omega
      have hnone : n + 1 - t.counter.toNat - 1 = 0 := by omega
      refine ⟨t.latch, ?_, ?_⟩
      · rw [hnone, Nat.zero_mod, Nat.sub_zero]
      · exact countDown_of_underflow_continuous { t with counter } lines hrun hend hcontinuous

end HasElapsed

/-- However many clocks there are, and however they are divided into ticks, the timer is in the
state that their number tells. -/
theorem hasElapsed_ticks (parts : List ℕ) :
    t.HasElapsed lines parts.sum (t.ticks lines parts) := by
  have htick (n : ℕ) : t.HasElapsed lines n (t.tick lines n) := by
    induction n with
    | zero => exact .start
    | succ n ih =>
      rw [tick_succ]
      exact ih.countDown
  rw [ticks_eq_tick]
  exact htick parts.sum

/-- From two on, zero comes around every three clocks. -/
example : (({ name := "timer", latch := 2, counter := 1, control := 0x05 } : IntervalTimer).ticks {}
    [1, 4, 2]).1.counter = 0 := by
  decide

end IntervalTimer

end W65C02
