import Mathlib.Data.List.DropRight
import W65C02.Device.DmaController
import W65C02.Proofs.Interrupt.Transcript

/-!
# The status of a DMA controller and its interrupt request

A completed transfer is recorded twice: as a flag in the controller, and as a request on the
interrupt lines, if that was enabled. A reading of the status and a reset clear both records. The
start of the next transfer clears the flag alone. So the two tell the same story until a transfer
is started while the request for an earlier one is still held. From then on the request has no
reason that the status could give, and the reading that finds none drops it all the same.
-/

namespace W65C02

/-- What happens to a DMA controller that concerns its transfers. -/
inductive DmaEvent where
  /-- A transfer is started. -/
  | start
  /-- A transfer is complete, and whether that was enabled to request an interrupt. -/
  | completion (enabled : Bool)
  /-- The status is read. -/
  | statusRead
  /-- The device is reset. -/
  | reset
  deriving DecidableEq

namespace DmaEvent

/-- Whether the event acknowledges the completions so far. -/
def acknowledges : DmaEvent → Bool
  | statusRead | reset => true
  | start | completion _ => false

/-- The events since the last acknowledgement. -/
def unacknowledged (history : List DmaEvent) : List DmaEvent :=
  history.rtakeWhile (!·.acknowledges)

/-- The last event is the start of a transfer, and a completion that was enabled to request an
interrupt is not acknowledged yet. -/
def Overtaken (history : List DmaEvent) : Prop :=
  history.getLast? = some .start ∧ .completion true ∈ unacknowledged history

end DmaEvent

/-- Whether a write to a register starts a transfer. -/
def DmaController.starts (d : DmaController) (offset : UInt16) (value : UInt8) : Bool :=
  offset = 5 && value &&& Dma.start != 0 && !d.busy

/-- A DMA controller, and the controller on whose lines it requests interrupts. -/
structure AttachedDma where
  /-- The DMA controller. -/
  dma : DmaController
  /-- The interrupt controller. -/
  controller : InterruptController

namespace AttachedDma

/-- What is done to a DMA controller or to the interrupt controller. -/
inductive Move where
  /-- A register is read. -/
  | read (offset : UInt16)
  /-- A register is written. -/
  | write (offset : UInt16) (value : UInt8)
  /-- The device is reset. -/
  | reset
  /-- The bus reports that the transfer is complete. -/
  | complete
  /-- Something is asked of the interrupt controller. -/
  | ask (call : InterruptController.Call)
  deriving DecidableEq

/-- Whether a move leaves the request of a device alone, unless it is the device's own doing. -/
def Move.leavesAlone (name : String) : Move → Bool
  | ask call => !call.movesIrq name
  | read _ | write _ _ | reset | complete => true

variable (s : AttachedDma) (settings : CpuSettings)

/-- A new DMA controller on an interrupt controller. -/
def attach (name : String) (controller : InterruptController) : AttachedDma where
  dma := .create name
  controller

/-- The DMA controller and the lines are replaced. -/
def take (result : DmaController × Lines) : AttachedDma where
  dma := result.1
  controller := { s.controller with lines := result.2 }

/-- Carries out a move. -/
def after : Move → AttachedDma
  | .read offset => s.take (s.dma.read s.controller.lines offset).2
  | .write offset value => { s with dma := s.dma.write offset value }
  | .reset => s.take (s.dma.reset s.controller.lines)
  | .complete => s.take (s.dma.complete s.controller.lines)
  | .ask call => { s with controller := (s.controller.call settings call).2 }

/-- What happens to the DMA controller in a move. -/
def events : Move → List DmaEvent
  | .read offset => if offset = 5 then [.statusRead] else []
  | .write offset value => if s.dma.starts offset value then [.start] else []
  | .reset => [.reset]
  | .complete => [.completion s.dma.irqOnDone]
  | .ask _ => []

/-- The two controllers after a number of moves. -/
def afterAll (s : AttachedDma) : List Move → AttachedDma
  | [] => s
  | first :: rest => (s.after settings first).afterAll rest

/-- What happens to the DMA controller in a number of moves, in order. -/
def history (s : AttachedDma) : List Move → List DmaEvent
  | [] => []
  | first :: rest => s.events first ++ (s.after settings first).history rest

/-- Completion is reported only of a transfer that is wanted or under way. -/
def CompletesWanted (s : AttachedDma) : List Move → Prop
  | [] => True
  | first :: rest =>
    (first = .complete → s.dma.busy = true) ∧ (s.after settings first).CompletesWanted rest

end AttachedDma

open DmaEvent

namespace DmaEvent

/-- One more event acknowledges those before it, or joins them. -/
theorem unacknowledged_append (history : List DmaEvent) (e : DmaEvent) :
    unacknowledged (history ++ [e]) =
      if e.acknowledges then [] else unacknowledged history ++ [e] := by
  unfold unacknowledged
  rw [List.rtakeWhile_concat]
  cases e.acknowledges <;> rfl

/-- If a completion is not acknowledged, then the last event is a start or a completion. -/
theorem getLast?_of_mem_unacknowledged {history : List DmaEvent} {e : DmaEvent}
    (h : e ∈ unacknowledged history) :
    history.getLast? = some .start ∨ ∃ enabled, history.getLast? = some (.completion enabled) := by
  cases history using List.reverseRecOn with
  | nil => simp [unacknowledged] at h
  | append_singleton earlier last =>
    rw [unacknowledged_append] at h
    rw [List.getLast?_concat]
    cases last with
    | start => exact .inl rfl
    | completion enabled => exact .inr ⟨enabled, rfl⟩
    | statusRead | reset => simp [acknowledges] at h

end DmaEvent

namespace DmaController

variable (d : DmaController) (lines : Lines)

/-- A read of the status acknowledges, and other reads do nothing. -/
theorem read_snd (offset : UInt16) :
    (d.read lines offset).2 =
      if offset = 5 then ({ d with done := false }, lines.release d.name .irq) else (d, lines) := by
  unfold read
  by_cases hstatus : offset = 5
  · subst hstatus
    rfl
  · simp only [if_neg hstatus]
    repeat' split
    all_goals rfl

/-- The start of a transfer sets busy and clears done. -/
theorem write_of_starts {offset : UInt16} {value : UInt8} (h : d.starts offset value = true) :
    d.write offset value =
      { d with irqOnDone := value &&& Dma.irqOnDone != 0, busy := true, done := false } := by
  simp only [starts, Bool.and_eq_true, decide_eq_true_eq] at h
  obtain ⟨⟨rfl, hstart⟩, hidle⟩ := h
  simp [write, setControl, hstart, hidle]

/-- What a write that starts no transfer leaves alone. -/
structure KeepsFlags (d d' : DmaController) : Prop where
  /-- The controller has the same name. -/
  name : d'.name = d.name
  /-- No transfer is started or given up. -/
  busy : d'.busy = d.busy
  /-- The flag is not moved. -/
  done : d'.done = d.done

/-- Any other write leaves busy and done alone. -/
theorem keepsFlags_write {offset : UInt16} {value : UInt8} (h : d.starts offset value = false) :
    d.KeepsFlags (d.write offset value) := by
  unfold write
  by_cases hcontrol : offset = 5
  · subst hcontrol
    have hkept : (value &&& Dma.start != 0 && !d.busy) = false := by simpa [starts] using h
    change d.KeepsFlags (d.setControl value)
    rw [setControl, if_neg (by simp [hkept])]
    exact ⟨rfl, rfl, rfl⟩
  · rw [if_neg hcontrol]
    repeat' split
    all_goals exact ⟨rfl, rfl, rfl⟩

/-- The flags and the lines tell the same story of the transfers so far. -/
structure Agrees (name : String) (history : List DmaEvent) : Prop where
  /-- The controller requests interrupts under the name. -/
  named : d.name = name
  /-- A transfer is wanted or under way if nothing but readings of the status followed its start. -/
  busy : d.busy = true ↔ (history.filter (· ≠ .statusRead)).getLast? = some .start
  /-- The flag is up if the last event is a completion. -/
  done : d.done = true ↔ ∃ enabled, history.getLast? = some (.completion enabled)
  /-- The request is held if a completion that was enabled to make it is not acknowledged. -/
  request : lines.holdsIrq name = true ↔ .completion true ∈ unacknowledged history

namespace Agrees

variable {d lines} {name : String} {history : List DmaEvent}

/-- A new controller has no transfer to tell of. -/
theorem create (hfree : lines.holdsIrq name = false) :
    (DmaController.create name).Agrees lines name [] where
  named := rfl
  busy := by simp [DmaController.create]
  done := by simp [DmaController.create]
  request := by simp [hfree, unacknowledged]

/-- What touches no record and is no event leaves them as they were. -/
theorem of_unchanged {d' : DmaController} {lines' : Lines} (h : d.Agrees lines name history)
    (hflags : d.KeepsFlags d') (hrequest : lines'.holdsIrq name = lines.holdsIrq name) :
    d'.Agrees lines' name history where
  named := hflags.name.trans h.named
  busy := by rw [hflags.busy, h.busy]
  done := by rw [hflags.done, h.done]
  request := by rw [hrequest, h.request]

/-- The start of a transfer moves the flags and leaves the request where it is. -/
theorem start {d' : DmaController} (h : d.Agrees lines name history) (hname : d'.name = d.name)
    (hbusy : d'.busy = true) (hdone : d'.done = false) :
    d'.Agrees lines name (history ++ [.start]) where
  named := hname.trans h.named
  busy := by simp [hbusy, List.filter_append]
  done := by simp [hdone]
  request := by simp [unacknowledged_append, acknowledges, h.request]

/-- A completion is recorded as a flag, and as a request if it is enabled to make one. -/
theorem complete (h : d.Agrees lines name history) :
    (d.complete lines).1.Agrees (d.complete lines).2 name
      (history ++ [.completion d.irqOnDone]) where
  named := h.named
  busy := by simp [DmaController.complete, List.filter_append]
  done := by simp [DmaController.complete]
  request := by
    rw [unacknowledged_append, DmaController.complete]
    cases henabled : d.irqOnDone with
    | false => simp [acknowledges, h.request]
    | true =>
      have hheld : (lines.request d.name .irq).holdsIrq name = true := by
        rw [← h.named]
        refine (lines.irqSources.contains_insert d.name d.name).trans ?_
        simp
      simp [acknowledges, hheld]

/-- The controller withdraws its own request. -/
theorem holdsIrq_release (h : d.Agrees lines name history) :
    (lines.release d.name .irq).holdsIrq name = false := by
  rw [← h.named]
  refine (lines.irqSources.contains_erase d.name d.name).trans ?_
  simp

/-- A reading of the status clears the flag and the request. -/
theorem statusRead (h : d.Agrees lines name history) :
    { d with done := false }.Agrees (lines.release d.name .irq) name
      (history ++ [DmaEvent.statusRead]) where
  named := h.named
  busy := by simp [List.filter_append, h.busy]
  done := by simp
  request := by simp [unacknowledged_append, acknowledges, h.holdsIrq_release]

/-- A reset clears all records. -/
theorem reset (h : d.Agrees lines name history) :
    (d.reset lines).1.Agrees (d.reset lines).2 name (history ++ [.reset]) where
  named := h.named
  busy := by simp [DmaController.reset, DmaController.create, List.filter_append]
  done := by simp [DmaController.reset, DmaController.create]
  request := by
    simp [DmaController.reset, unacknowledged_append, acknowledges, h.holdsIrq_release]

/-- After a read the controller agrees with its history, -/
theorem read (h : d.Agrees lines name history) (offset : UInt16) :
    (d.read lines offset).2.1.Agrees (d.read lines offset).2.2 name
      (history ++ if offset = 5 then [.statusRead] else []) := by
  rw [read_snd]
  split
  · exact h.statusRead
  · rw [List.append_nil]
    exact h

/-- and after a write. -/
theorem write (h : d.Agrees lines name history) (offset : UInt16) (value : UInt8) :
    (d.write offset value).Agrees lines name
      (history ++ if d.starts offset value then [.start] else []) := by
  cases hstarts : d.starts offset value with
  | true =>
    rw [if_pos rfl, d.write_of_starts hstarts]
    exact h.start rfl rfl rfl
  | false =>
    rw [if_neg Bool.false_ne_true, List.append_nil]
    exact h.of_unchanged (d.keepsFlags_write hstarts) rfl

/-- No transfer is under way once its completion is recorded. -/
theorem not_busy_of_done (h : d.Agrees lines name history) (hdone : d.done = true) :
    d.busy = false := by
  obtain ⟨enabled, hlast⟩ := h.done.mp hdone
  obtain ⟨earlier, rfl⟩ := List.getLast?_eq_some_iff.mp hlast
  refine Bool.eq_false_iff.mpr fun hbusy => ?_
  have hstart := h.busy.mp hbusy
  simp [List.filter_append] at hstart

/-- While the request is held, the flag is up unless the completion was overtaken. -/
theorem done_eq_false_iff (h : d.Agrees lines name history) (hheld : lines.holdsIrq name = true) :
    d.done = false ↔ Overtaken history := by
  have hmem := h.request.mp hheld
  rw [Bool.eq_false_iff, Ne, h.done, Overtaken, and_iff_left hmem]
  rcases getLast?_of_mem_unacknowledged hmem with hstart | ⟨enabled, hcompletion⟩
  · simp [hstart]
  · simp [hcompletion]

end Agrees

end DmaController

namespace AttachedDma

variable {s : AttachedDma} {name : String} {past : List DmaEvent}

/-- Whatever is done, the records follow it, unless somebody else moves the request. -/
theorem agrees_after (settings : CpuSettings) {move : Move} (hmove : move.leavesAlone name = true)
    (h : s.dma.Agrees s.controller.lines name past) :
    (s.after settings move).dma.Agrees (s.after settings move).controller.lines name
      (past ++ s.events move) := by
  cases move with
  | read offset => exact h.read offset
  | write offset value => exact h.write offset value
  | reset => exact h.reset
  | complete => exact h.complete
  | ask call =>
    have hirq := (s.controller.moves_call settings call).irq name
    rw [if_neg (by simpa [Move.leavesAlone] using hmove)] at hirq
    rw [events, List.append_nil]
    exact h.of_unchanged ⟨rfl, rfl, rfl⟩ hirq

/-- However many moves there are, the records tell the same story. -/
theorem agrees_afterAll (settings : CpuSettings) {moves : List Move}
    (hmoves : ∀ move ∈ moves, move.leavesAlone name = true)
    (h : s.dma.Agrees s.controller.lines name past) :
    (s.afterAll settings moves).dma.Agrees (s.afterAll settings moves).controller.lines name
      (past ++ s.history settings moves) := by
  induction moves generalizing s past with
  | nil =>
    rw [history, List.append_nil]
    exact h
  | cons first rest ih =>
    rw [List.forall_mem_cons] at hmoves
    rw [history, ← List.append_assoc]
    exact ih hmoves.2 (agrees_after settings hmoves.1 h)

/-- A held request has a completion as its reason, and a reading of the status reports it. -/
structure AnswersRequest (s : AttachedDma) (settings : CpuSettings) (name : String) : Prop where
  /-- The flag is up. -/
  done : s.dma.done = true
  /-- The status tells of a completion, and of no transfer under way. -/
  reported : (s.dma.read s.controller.lines 5).1 = Dma.doneStatus
  /-- Reading it lowers the flag. -/
  lowered : (s.after settings (.read 5)).dma.done = false
  /-- Reading it releases the request. -/
  released : (s.after settings (.read 5)).controller.lines.holdsIrq name = false

/-- What the flags and the request of a DMA controller tell after a number of moves. -/
structure ReportsCompletions (s : AttachedDma) (settings : CpuSettings) (name : String)
    (moves : List Move) : Prop where
  /-- The flags and the lines are what has happened to the transfers. -/
  records : (s.afterAll settings moves).dma.Agrees
    (s.afterAll settings moves).controller.lines name (s.history settings moves)
  /-- No transfer is under way once its completion is recorded. -/
  exclusive : ((s.afterAll settings moves).dma.busy && (s.afterAll settings moves).dma.done) = false
  /-- A held request is answered by the status exactly if no start has overtaken the completion. -/
  answered_iff : ((s.afterAll settings moves).controller.lines.holdsIrq name = true →
      (s.afterAll settings moves).AnswersRequest settings name) ↔
    ¬ Overtaken (s.history settings moves)

/-- The flags of a DMA controller whose name nobody else uses agree with its request at all times
but one: between the start of a transfer and the next event, if the completion of an earlier one
had not been acknowledged. -/
theorem reportsCompletions (settings : CpuSettings) {name : String}
    {controller : InterruptController} (hfree : controller.lines.holdsIrq name = false)
    {moves : List Move} (hmoves : ∀ move ∈ moves, move.leavesAlone name = true) :
    (attach name controller).ReportsCompletions settings name moves := by
  have hattached : (attach name controller).dma.Agrees controller.lines name [] := .create hfree
  have hagrees := agrees_afterAll settings hmoves hattached
  rw [List.nil_append] at hagrees
  refine ⟨hagrees, ?_, fun hanswers hovertaken => ?_, fun hovertaken hheld => ?_⟩
  · cases hdone : ((attach name controller).afterAll settings moves).dma.done with
    | false => exact Bool.and_false _
    | true => rw [hagrees.not_busy_of_done hdone, Bool.false_and]
  · have hheld := hagrees.request.mpr hovertaken.2
    have hlowered := (hagrees.done_eq_false_iff hheld).mpr hovertaken
    exact Bool.false_ne_true (hlowered.symm.trans (hanswers hheld).done)
  · have hdone : ((attach name controller).afterAll settings moves).dma.done = true :=
      Bool.of_not_eq_false (mt (hagrees.done_eq_false_iff hheld).mp hovertaken)
    have hidle := hagrees.not_busy_of_done hdone
    exact ⟨hdone, by simp [DmaController.read, DmaController.status, hdone, hidle], rfl,
      hagrees.holdsIrq_release⟩

/-- A controller that shares its line reports the end of its transfer. -/
theorem reportsCompletions_shared :
    ({} : InterruptController).lines.holdsIrq "dma" = false ∧
      (∀ move ∈ [.write 4 1, .write 5 0x03, .ask (.request "uart" .irq), .complete],
        Move.leavesAlone "dma" move = true) ∧
      (attach "dma" {}).ReportsCompletions {} "dma"
        [.write 4 1, .write 5 0x03, .ask (.request "uart" .irq), .complete] :=
  ⟨rfl, by decide, reportsCompletions {} rfl (by decide)⟩

/-- A transfer requests an interrupt when it is complete, and the next one is started before
anybody reads the status. -/
def hastyMoves : List Move := [.write 5 0x03, .complete, .write 5 0x01]

/-- The second start leaves a request without a reason. The status tells of nothing but the new
transfer, and reading it drops the request. -/
theorem not_answersRequest_hastyMoves :
    (∀ move ∈ hastyMoves, move.leavesAlone "dma" = true) ∧
      (attach "dma" {}).CompletesWanted {} hastyMoves ∧
      ¬ (((attach "dma" {}).afterAll {} hastyMoves).controller.lines.holdsIrq "dma" = true →
        ((attach "dma" {}).afterAll {} hastyMoves).dma.done = true) ∧
      (((attach "dma" {}).afterAll {} hastyMoves).dma.read
        ((attach "dma" {}).afterAll {} hastyMoves).controller.lines 5).1 = Dma.busyStatus ∧
      ((attach "dma" {}).afterAll {} (hastyMoves ++ [.read 5])).controller.lines.holdsIrq "dma" =
        false :=
  ⟨by decide, ⟨nofun, fun _ => rfl, nofun, trivial⟩, by decide, by decide, by decide⟩

/-- A reading of the status between the two starts keeps the request and its reason together. -/
example : (attach "dma" {}).history {} [.write 5 0x03, .complete, .read 5, .write 5 0x01, .read 4] =
    [.start, .completion true, .statusRead, .start] := by
  decide

end AttachedDma

end W65C02
