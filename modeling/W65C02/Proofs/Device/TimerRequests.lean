import Mathlib.Data.List.DropRight
import W65C02.Proofs.Device.IntervalTimer
import W65C02.Proofs.Interrupt.Transcript

/-!
# The status of a timer and its interrupt request

An underflow is recorded twice: as a flag in the timer, and as a request on the interrupt lines, if
that was enabled. The two records are kept in different places, and other sources use the lines
meanwhile. As long as nobody else moves the request, both tell the same story: the flag is up if
there has been an underflow since the last acknowledgement, and the request is held if one of these
underflows was enabled to make it. So a routine that reads the status always finds the reason for
the request, and it ends the request by reading.
-/

namespace W65C02

/-- What happens to a timer that concerns its flag. -/
inductive TimerEvent where
  /-- The counter went beyond zero, and whether that was enabled to request an interrupt. -/
  | underflow (enabled : Bool)
  /-- The underflows so far were acknowledged. -/
  | acknowledgement
  deriving DecidableEq

/-- The underflows since the last acknowledgement. -/
def TimerEvent.unacknowledged (history : List TimerEvent) : List TimerEvent :=
  history.rtakeWhile (· ≠ .acknowledgement)

namespace IntervalTimer

variable (t : IntervalTimer) (lines : Lines)

/-- A running timer that is at zero has an underflow in the next clock. -/
def clockEvents : List TimerEvent :=
  if t.isRunning && t.counter == 0 then [.underflow (t.control &&& Timer.irqEnable != 0)] else []

/-- What happens in a number of clocks. -/
def tickEvents (clocks : ℕ) : List TimerEvent :=
  (List.range clocks).flatMap fun earlier => (t.tick lines earlier).1.clockEvents

/-- The status register is the one that acknowledges. -/
def accessEvents (offset : UInt16) : List TimerEvent :=
  if offset = 3 then [.acknowledgement] else []

end IntervalTimer

/-- A timer, and the controller on whose lines it requests interrupts. -/
structure AttachedTimer where
  /-- The timer. -/
  timer : IntervalTimer
  /-- The controller. -/
  controller : InterruptController

namespace AttachedTimer

/-- What is done to a timer or to its controller. -/
inductive Move where
  /-- A number of clocks. -/
  | tick (clocks : ℕ)
  /-- A register is read. -/
  | read (offset : UInt16)
  /-- A register is written. -/
  | write (offset : UInt16) (value : UInt8)
  /-- The device is reset. -/
  | reset
  /-- Something is asked of the controller. -/
  | ask (call : InterruptController.Call)
  deriving DecidableEq

namespace Move

/-- Whether the move leaves the request of a timer alone, unless it is the timer's own doing. -/
def leavesAlone (name : String) : Move → Bool
  | ask call => !call.movesIrq name
  | tick _ | read _ | write _ _ | reset => true

/-- Whether the move acknowledges the underflows so far. -/
def acknowledges : Move → Bool
  | read offset | write offset _ => offset = 3
  | reset => true
  | tick _ | ask _ => false

end Move

variable (s : AttachedTimer) (settings : CpuSettings)

/-- A new timer on a controller. -/
def attach (name : String) (controller : InterruptController) : AttachedTimer where
  timer := .create name
  controller

/-- The timer and the lines are replaced. -/
def take (result : IntervalTimer × Lines) : AttachedTimer where
  timer := result.1
  controller := { s.controller with lines := result.2 }

/-- Carries out a move. -/
def after : Move → AttachedTimer
  | .tick clocks => s.take (s.timer.tick s.controller.lines clocks)
  | .read offset => s.take (s.timer.read s.controller.lines offset).2
  | .write offset value => s.take (s.timer.write s.controller.lines offset value)
  | .reset => s.take (s.timer.reset s.controller.lines)
  | .ask call => { s with controller := (s.controller.call settings call).2 }

/-- What happens to the timer in a move. -/
def events : Move → List TimerEvent
  | .tick clocks => s.timer.tickEvents s.controller.lines clocks
  | .read offset | .write offset _ => IntervalTimer.accessEvents offset
  | .reset => [.acknowledgement]
  | .ask _ => []

/-- The timer and its controller after a number of moves. -/
def afterAll (s : AttachedTimer) : List Move → AttachedTimer
  | [] => s
  | first :: rest => (s.after settings first).afterAll rest

/-- What happens to the timer in a number of moves, in order. -/
def history (s : AttachedTimer) : List Move → List TimerEvent
  | [] => []
  | first :: rest => s.events first ++ (s.after settings first).history rest

end AttachedTimer

namespace TimerEvent

variable {history events : List TimerEvent}

/-- After an acknowledgement everything is acknowledged. -/
theorem unacknowledged_acknowledgement (history : List TimerEvent) :
    unacknowledged (history ++ [acknowledgement]) = [] :=
  List.rtakeWhile_concat_neg _ _ _ (by simp)

/-- Without an acknowledgement the underflows only become more. -/
theorem unacknowledged_append (hevents : acknowledgement ∉ events) :
    unacknowledged (history ++ events) = unacknowledged history ++ events := by
  induction events using List.reverseRecOn with
  | nil => rw [List.append_nil, List.append_nil]
  | append_singleton earlier last ih =>
    obtain ⟨hearlier, hlast⟩ := not_or.mp (mt List.mem_append.mpr hevents)
    have hkept : decide (last ≠ acknowledgement) = true :=
      decide_eq_true fun h => hlast (List.mem_singleton.mpr h.symm)
    have hconcat := List.rtakeWhile_concat_pos (· ≠ acknowledgement) (history ++ earlier) last hkept
    rw [← List.append_assoc, unacknowledged, hconcat, ← List.append_assoc]
    exact congrArg (· ++ [last]) (ih hearlier)

end TimerEvent

open TimerEvent

namespace IntervalTimer

variable (t : IntervalTimer) (lines : Lines)

/-- The events of the last clock come after those of the others. -/
theorem tickEvents_succ (clocks : ℕ) :
    t.tickEvents lines (clocks + 1) =
      t.tickEvents lines clocks ++ (t.tick lines clocks).1.clockEvents := by
  simp only [tickEvents, List.range_succ, List.flatMap_append, List.flatMap_singleton]

/-- Clocks acknowledge nothing. -/
theorem acknowledgement_notMem_tickEvents (clocks : ℕ) :
    .acknowledgement ∉ t.tickEvents lines clocks := by
  intro hmem
  obtain ⟨earlier, -, hevent⟩ := List.mem_flatMap.mp hmem
  unfold clockEvents at hevent
  split at hevent <;> simp at hevent

/-- A read of the status acknowledges, and other reads do nothing. -/
theorem read_snd (offset : UInt16) :
    (t.read lines offset).2 = if offset = 3 then t.acknowledge lines else (t, lines) := by
  unfold read
  by_cases hstatus : offset = 3
  · subst hstatus
    rfl
  · simp only [if_neg hstatus]
    repeat' split
    all_goals rfl

/-- The flag and the lines tell the same story of the underflows so far. -/
structure Agrees (name : String) (history : List TimerEvent) : Prop where
  /-- The timer requests interrupts under the name. -/
  named : t.name = name
  /-- The flag is up if there is an underflow that is not acknowledged. -/
  underflow : t.underflow = true ↔ ∃ enabled, .underflow enabled ∈ unacknowledged history
  /-- The request is held if one of these underflows was enabled to make it. -/
  request : lines.holdsIrq name = true ↔ .underflow true ∈ unacknowledged history

namespace Agrees

variable {t lines} {name : String} {history : List TimerEvent}

/-- A new timer has no underflow to tell of. -/
theorem create (hfree : lines.holdsIrq name = false) :
    (IntervalTimer.create name).Agrees lines name [] where
  named := rfl
  underflow := by simp [IntervalTimer.create, unacknowledged]
  request := by simp [hfree, unacknowledged]

/-- What touches neither record and is no event leaves them as they were. -/
theorem of_unchanged {t' : IntervalTimer} {lines' : Lines} (h : t.Agrees lines name history)
    (hname : t'.name = t.name) (hunderflow : t'.underflow = t.underflow)
    (hrequest : lines'.holdsIrq name = lines.holdsIrq name) : t'.Agrees lines' name history where
  named := hname.trans h.named
  underflow := by rw [hunderflow, h.underflow]
  request := by rw [hrequest, h.request]

/-- An acknowledgement clears both records. -/
theorem acknowledge (h : t.Agrees lines name history) :
    (t.acknowledge lines).1.Agrees (t.acknowledge lines).2 name
      (history ++ [.acknowledgement]) where
  named := h.named
  underflow := by simp [unacknowledged_acknowledgement, IntervalTimer.acknowledge]
  request := by
    have herased : (t.acknowledge lines).2.holdsIrq name = false := by
      rw [← h.named]
      refine (lines.irqSources.contains_erase t.name t.name).trans ?_
      simp
    simp [unacknowledged_acknowledgement, herased]

/-- An underflow is recorded as a flag, and as a request if it is enabled to make one. -/
theorem notify {t' : IntervalTimer} (h : t.Agrees lines name history) (hname : t'.name = t.name)
    (hunderflow : t'.underflow = true) :
    t'.Agrees (t.notify lines) name
      (history ++ [.underflow (t.control &&& Timer.irqEnable != 0)]) where
  named := hname.trans h.named
  underflow := by
    rw [unacknowledged_append (by simp), hunderflow]
    simp
  request := by
    rw [unacknowledged_append (by simp), List.mem_append, ← h.request, IntervalTimer.notify]
    cases henabled : t.control &&& Timer.irqEnable != 0 with
    | false => simp
    | true =>
      have hheld : (lines.request t.name .irq).holdsIrq name = true := by
        rw [← h.named]
        refine (lines.irqSources.contains_insert t.name t.name).trans ?_
        simp
      simp [hheld]

/-- A clock is recorded. -/
theorem countDown (h : t.Agrees lines name history) :
    (t.countDown lines).1.Agrees (t.countDown lines).2 name (history ++ t.clockEvents) := by
  cases hrun : t.isRunning with
  | false =>
    rw [t.countDown_of_stopped lines hrun, clockEvents, hrun, Bool.false_and,
      if_neg Bool.false_ne_true, List.append_nil]
    exact h
  | true =>
    rw [clockEvents, hrun, Bool.true_and]
    by_cases hcounter : t.counter = 0
    · rw [t.countDown_of_underflow lines hrun hcounter, if_pos (beq_iff_eq.mpr hcounter)]
      exact h.notify rfl rfl
    · have hpositive := UInt16.pos_iff_ne_zero.mpr hcounter
      rw [t.countDown_of_isRunning lines hrun hpositive, if_neg (mt beq_iff_eq.mp hcounter),
        List.append_nil]
      exact h.of_unchanged rfl rfl rfl

/-- A number of clocks is recorded. -/
theorem tick (h : t.Agrees lines name history) (clocks : ℕ) :
    (t.tick lines clocks).1.Agrees (t.tick lines clocks).2 name
      (history ++ t.tickEvents lines clocks) := by
  induction clocks with
  | zero =>
    rw [show t.tickEvents lines 0 = [] from rfl, List.append_nil]
    exact h
  | succ clocks ih =>
    rw [tick_succ, tickEvents_succ, ← List.append_assoc]
    exact ih.countDown

/-- After a read the timer agrees with its history, -/
theorem read (h : t.Agrees lines name history) (offset : UInt16) :
    (t.read lines offset).2.1.Agrees (t.read lines offset).2.2 name
      (history ++ accessEvents offset) := by
  rw [read_snd, accessEvents]
  split
  · exact h.acknowledge
  · rw [List.append_nil]
    exact h

/-- after a write, -/
theorem write (h : t.Agrees lines name history) (offset : UInt16) (value : UInt8) :
    (t.write lines offset value).1.Agrees (t.write lines offset value).2 name
      (history ++ accessEvents offset) := by
  unfold IntervalTimer.write accessEvents
  by_cases hstatus : offset = 3
  · subst hstatus
    exact h.acknowledge
  · rw [if_neg hstatus, if_neg hstatus, List.append_nil]
    repeat' split
    all_goals exact h.of_unchanged rfl rfl rfl

/-- and after a reset. -/
theorem reset (h : t.Agrees lines name history) :
    (t.reset lines).1.Agrees (t.reset lines).2 name (history ++ [.acknowledgement]) := by
  have hinitial : { t with latch := 0xFFFF, counter := 0xFFFF, control := 0 }.Agrees lines name
      history := h.of_unchanged rfl rfl rfl
  exact hinitial.acknowledge

end Agrees

end IntervalTimer

namespace AttachedTimer

variable {s : AttachedTimer} {name : String} {past : List TimerEvent}

/-- Whatever is done, both records follow it, unless somebody else moves the request. -/
theorem agrees_after (settings : CpuSettings) {move : Move} (hmove : move.leavesAlone name = true)
    (h : s.timer.Agrees s.controller.lines name past) :
    (s.after settings move).timer.Agrees (s.after settings move).controller.lines name
      (past ++ s.events move) := by
  cases move with
  | tick clocks => exact h.tick clocks
  | read offset => exact h.read offset
  | write offset value => exact h.write offset value
  | reset => exact h.reset
  | ask call =>
    have hirq := (s.controller.moves_call settings call).irq name
    rw [if_neg (by simpa [Move.leavesAlone] using hmove)] at hirq
    rw [events, List.append_nil]
    exact h.of_unchanged rfl rfl hirq

/-- However many moves there are, both records tell the same story. -/
theorem agrees_afterAll (settings : CpuSettings) {moves : List Move}
    (hmoves : ∀ move ∈ moves, move.leavesAlone name = true)
    (h : s.timer.Agrees s.controller.lines name past) :
    (s.afterAll settings moves).timer.Agrees (s.afterAll settings moves).controller.lines name
      (past ++ s.history settings moves) := by
  induction moves generalizing s past with
  | nil =>
    rw [history, List.append_nil]
    exact h
  | cons first rest ih =>
    rw [List.forall_mem_cons] at hmoves
    rw [history, ← List.append_assoc]
    exact ih hmoves.2 (agrees_after settings hmoves.1 h)

/-- An acknowledgement is made by nothing but the moves that are made for it. -/
theorem acknowledgement_notMem_history (s : AttachedTimer) (settings : CpuSettings)
    {moves : List Move} (hmoves : ∀ move ∈ moves, move.acknowledges = false) :
    .acknowledgement ∉ s.history settings moves := by
  induction moves generalizing s with
  | nil => exact List.not_mem_nil
  | cons first rest ih =>
    obtain ⟨hfirst, hrest⟩ := List.forall_mem_cons.mp hmoves
    have hevents : .acknowledgement ∉ s.events first := by
      cases first with
      | tick clocks => exact s.timer.acknowledgement_notMem_tickEvents s.controller.lines clocks
      | read offset | write offset _ =>
        rw [events, IntervalTimer.accessEvents, if_neg (of_decide_eq_false hfirst)]
        exact List.not_mem_nil
      | reset => cases hfirst
      | ask => exact List.not_mem_nil
    rw [history, List.mem_append]
    exact not_or.mpr ⟨hevents, ih (s.after settings first) hrest⟩

/-- Reading the status reports an underflow, and it ends the request. -/
structure AnswersRequest (s : AttachedTimer) (settings : CpuSettings) (name : String) : Prop where
  /-- The status tells of an underflow. -/
  reported : (s.timer.read s.controller.lines 3).1 = Timer.underflowStatus
  /-- The flag is lowered. -/
  lowered : (s.after settings (.read 3)).timer.underflow = false
  /-- The request is released. -/
  released : (s.after settings (.read 3)).controller.lines.holdsIrq name = false

/-- What the flag and the request of a timer tell after a number of moves. -/
structure ReportsUnderflows (s : AttachedTimer) (settings : CpuSettings) (name : String)
    (moves : List Move) : Prop where
  /-- The flag is up if there has been an underflow since the last acknowledgement. -/
  underflow : (s.afterAll settings moves).timer.underflow = true ↔
    ∃ enabled, .underflow enabled ∈ unacknowledged (s.history settings moves)
  /-- The request is held if one of these underflows was enabled to make it. -/
  request : (s.afterAll settings moves).controller.lines.holdsIrq name = true ↔
    .underflow true ∈ unacknowledged (s.history settings moves)
  /-- If the request is held, then a reading of the status answers it, now or later, unless
  something else acknowledges it before. -/
  status : (s.afterAll settings moves).controller.lines.holdsIrq name = true →
    ∀ later : List Move, (∀ move ∈ later, move.leavesAlone name = true) →
      (∀ move ∈ later, move.acknowledges = false) →
        ((s.afterAll settings moves).afterAll settings later).AnswersRequest settings name

/-- The flag and the request of a timer whose name nobody else uses agree at all times. -/
theorem reportsUnderflows (settings : CpuSettings) {name : String}
    {controller : InterruptController} (hfree : controller.lines.holdsIrq name = false)
    {moves : List Move} (hmoves : ∀ move ∈ moves, move.leavesAlone name = true) :
    (attach name controller).ReportsUnderflows settings name moves := by
  let s := (attach name controller).afterAll settings moves
  let past := (attach name controller).history settings moves
  have hattached : (attach name controller).timer.Agrees controller.lines name [] := .create hfree
  have hagrees : s.timer.Agrees s.controller.lines name past :=
    agrees_afterAll settings hmoves hattached
  refine ⟨hagrees.underflow, hagrees.request, fun hheld later hlater hkeeps => ?_⟩
  have hlast := agrees_afterAll settings hlater hagrees
  have hnone := s.acknowledgement_notMem_history settings hkeeps
  have hflag : (s.afterAll settings later).timer.underflow = true := by
    rw [hlast.underflow, unacknowledged_append hnone]
    exact ⟨true, List.mem_append_left _ (hagrees.request.mp hheld)⟩
  have hread := agrees_after settings (rfl : (Move.read 3).leavesAlone name = true) hlast
  have hreleased : ¬ ((s.afterAll settings later).after settings
      (.read 3)).controller.lines.holdsIrq name = true := by
    rw [hread.request, events, IntervalTimer.accessEvents, if_pos rfl,
      unacknowledged_acknowledgement]
    exact List.not_mem_nil
  exact ⟨if_pos hflag, rfl, Bool.eq_false_iff.mpr hreleased⟩

/-- A timer that shares its line reports an underflow after 65536 clocks. -/
theorem reportsUnderflows_shared :
    ({} : InterruptController).lines.holdsIrq "timer" = false ∧
      (∀ move ∈ [.write 2 0x07, .ask (.request "uart" .irq), .tick 65536],
        Move.leavesAlone "timer" move = true) ∧
      (attach "timer" {}).ReportsUnderflows {} "timer"
        [.write 2 0x07, .ask (.request "uart" .irq), .tick 65536] :=
  ⟨rfl, by decide, reportsUnderflows {} rfl (by decide)⟩

/-- With one in its latch a timer has an underflow every other clock. -/
example : (attach "timer" {}).history {}
    [.write 0 1, .write 1 0, .write 2 0x07, .tick 5, .read 3, .tick 1] =
      [.underflow true, .underflow true, .acknowledgement, .underflow true] := by
  decide

end AttachedTimer

end W65C02
