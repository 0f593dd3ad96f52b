import Mathlib.Data.List.DropRight
import W65C02.Proofs.Interrupt.Transcript

/-!
# The log of acknowledgements

The controller counts what it acknowledges, in all and for each line, and it remembers the latest
acknowledgements. Every acknowledgement is entered in all of these places and nothing else is, so
the counts and the log are what an observer would write down who sees which vectors are returned
and which sources hold IRQ meanwhile. The counts have 64 bits and wrap around together.
-/

namespace W65C02

/-- How often a line was acknowledged. -/
def LineCounts.of (counts : LineCounts) : Line → UInt64
  | .reset => counts.reset
  | .nmi => counts.nmi
  | .irq => counts.irq

/-- One more acknowledgement is counted on its line, and on no other. -/
theorem LineCounts.of_count (counts : LineCounts) (line other : Line) :
    (counts.count line).of other = if line = other then counts.of other + 1 else counts.of other := by
  cases line <;> cases other <;> rfl

namespace InterruptController

/-- What is done to a controller. -/
inductive Move where
  /-- Something is asked of it. -/
  | ask (call : Call)
  /-- Its lines are given the state that a snapshot describes. -/
  | restore (p : LinesSnapshot)
  deriving DecidableEq

/-- Carries out a move, and tells what was acknowledged in it. -/
def move (c : InterruptController) (settings : CpuSettings) :
    Move → Option InterruptVector × InterruptController
  | .ask call => c.call settings call
  | .restore p => (none, c.restore p)

/-- The controller after a number of moves. -/
def moveAll (c : InterruptController) (settings : CpuSettings) : List Move → InterruptController
  | [] => c
  | first :: rest => (c.move settings first).2.moveAll settings rest

/-- What was returned when a request was taken up, and the lines at that moment. -/
structure Service where
  /-- The vector that was returned. -/
  vector : InterruptVector
  /-- The lines at that moment. -/
  lines : Lines
  deriving DecidableEq

/-- What the log should hold of it: its number, the vector, and the sources that held IRQ. -/
def Service.entry (service : Service) (number : ℕ) : Acknowledgement :=
  ⟨UInt64.ofNat number, service.vector, service.lines.irqSources.names⟩

/-- The requests that are taken up in a number of moves, in order. -/
def services (c : InterruptController) (settings : CpuSettings) : List Move → List Service
  | [] => []
  | first :: rest =>
    ((c.move settings first).1.map (⟨·, c.lines⟩)).toList ++
      (c.move settings first).2.services settings rest

/-- What a log without bounds would hold, oldest first. -/
def entries (services : List Service) : List Acknowledgement :=
  services.mapIdx fun number service => service.entry number

/-- There is an entry for each service, -/
theorem length_entries (services : List Service) : (entries services).length = services.length :=
  List.length_mapIdx

/-- with its vector. -/
theorem map_vector_entries (services : List Service) :
    (entries services).map (·.vector) = services.map (·.vector) := by
  refine List.ext_getElem ?_ fun number _ _ => ?_
  · rw [List.length_map, List.length_map, length_entries]
  · simp only [entries, List.getElem_map, List.getElem_mapIdx]
    rfl

/-- Every request that was taken up was on one of the three lines. -/
theorem sum_countP_line (services : List Service) :
    services.countP (·.vector.line = .reset) + services.countP (·.vector.line = .nmi) +
      services.countP (·.vector.line = .irq) = services.length := by
  induction services with
  | nil => rfl
  | cons first rest ih =>
    simp only [List.countP_cons, List.length_cons]
    cases first.vector.line <;> simp <;> omega

/-- The counts and the log are what has been taken up so far. -/
structure Records (c : InterruptController) (past : List Service) : Prop where
  /-- The number of what was taken up. -/
  sequence : c.sequence = UInt64.ofNat past.length
  /-- The same for each line. -/
  counts : ∀ line, c.counts.of line = UInt64.ofNat (past.countP (·.vector.line = line))
  /-- The newest entries, as many as the log has room for. -/
  recent : c.recent = (entries past).reverse.take logCapacity

namespace Records

variable {c : InterruptController} {past : List Service}

/-- A new controller has no past. -/
theorem start : Records {} [] := ⟨rfl, fun line => by cases line <;> rfl, rfl⟩

/-- The lines have no part in the records. -/
theorem with_lines (h : c.Records past) (lines : Lines) : { c with lines }.Records past :=
  ⟨h.sequence, h.counts, h.recent⟩

/-- An entry is counted and remembered, at the cost of the oldest one if the log is full. -/
theorem enter (h : c.Records past) {service : Service}
    (hsources : c.lines.irqSources = service.lines.irqSources) :
    (c.enter service.vector).Records (past ++ [service]) where
  sequence := by
    rw [List.length_append, List.length_singleton, UInt64.ofNat_add, ← h.sequence]
    rfl
  counts line := by
    change (c.counts.count service.vector.line).of line = _
    rw [LineCounts.of_count, List.countP_append, List.countP_singleton, h.counts]
    by_cases hline : service.vector.line = line
    · simp [hline]
    · simp [hline]
  recent := by
    have hentry : entries (past ++ [service]) =
        entries past ++ [⟨c.sequence, service.vector, c.lines.irqSources.names⟩] := by
      rw [entries, List.mapIdx_concat, h.sequence, hsources]
      rfl
    change (_ :: c.recent).take (999 + 1) = _
    rw [hentry, List.reverse_concat, h.recent]
    change _ = (_ :: (entries past).reverse).take (999 + 1)
    rw [List.take_succ_cons, List.take_succ_cons, List.take_take]
    rfl

/-- Whatever is taken up is recorded. -/
theorem acknowledge (h : c.Records past) (settings : CpuSettings) (irqDisabled : Bool) :
    (c.acknowledge settings irqDisabled).2.Records
      (past ++ ((c.acknowledge settings irqDisabled).1.map (⟨·, c.lines⟩)).toList) := by
  unfold InterruptController.acknowledge
  cases hnext : c.lines.next irqDisabled with
  | none => simpa using h
  | some line =>
    let service : Service := ⟨⟨settings.vectorOf line, line⟩, c.lines⟩
    have hsources : (c.lines.serve line).irqSources = service.lines.irqSources := by
      cases line <;> rfl
    exact (h.with_lines (c.lines.serve line)).enter hsources

/-- No move but an acknowledgement touches the records. -/
theorem move (h : c.Records past) (settings : CpuSettings) (move : Move) :
    (c.move settings move).2.Records
      (past ++ ((c.move settings move).1.map (⟨·, c.lines⟩)).toList) := by
  cases move with
  | ask call =>
    cases call with
    | acknowledge irqDisabled => exact h.acknowledge settings irqDisabled
    | request | release | nmiPulse | releaseAll =>
      change Records { c with lines := _ } (past ++ [])
      rw [List.append_nil]
      exact h.with_lines _
  | restore p =>
    change Records { c with lines := _ } (past ++ [])
    rw [List.append_nil]
    exact h.with_lines _

/-- However many moves there are, what is taken up in them is recorded. -/
theorem moveAll (h : c.Records past) (settings : CpuSettings) (moves : List Move) :
    (c.moveAll settings moves).Records (past ++ c.services settings moves) := by
  induction moves generalizing c past with
  | nil =>
    rw [services, List.append_nil]
    exact h
  | cons first rest ih =>
    rw [services, ← List.append_assoc]
    exact ih (h.move settings first)

/-- The log holds the latest of all entries, oldest first. -/
theorem log_eq (h : c.Records past) : c.log = (entries past).rtake logCapacity := by
  rw [InterruptController.log, h.recent, List.rtake_eq_reverse_take_reverse]

/-- The log has an entry for each service, up to its capacity. -/
theorem length_log (h : c.Records past) : c.log.length = min past.length logCapacity := by
  rw [h.log_eq, List.rtake, List.length_drop, length_entries]
  omega

/-- The entries of the log are numbered one after the other, up to the latest. -/
theorem getElem_log_sequence (h : c.Records past) {number : ℕ} (hnumber : number < c.log.length) :
    c.log[number].sequence = c.sequence - UInt64.ofNat (c.log.length - number) := by
  have hlength := h.length_log
  have hearlier : past.length - logCapacity + number = past.length - (c.log.length - number) := by
    omega
  rw [h.sequence, ← UInt64.ofNat_sub (by omega), ← hearlier]
  simp only [h.log_eq, List.rtake, List.getElem_drop, entries, List.getElem_mapIdx,
    List.length_mapIdx]
  rfl

/-- All counts together are the number of all acknowledgements. -/
theorem sum_counts (h : c.Records past) :
    c.counts.reset + c.counts.nmi + c.counts.irq = c.sequence := by
  have hreset := h.counts .reset
  have hnmi := h.counts .nmi
  have hirq := h.counts .irq
  simp only [LineCounts.of] at hreset hnmi hirq
  rw [hreset, hnmi, hirq, ← UInt64.ofNat_add, ← UInt64.ofNat_add, sum_countP_line, h.sequence]

/-- A count is exact as long as there are fewer acknowledgements than it can tell apart. -/
theorem toNat_counts (h : c.Records past) (hpast : past.length < UInt64.size) (line : Line) :
    (c.counts.of line).toNat = past.countP (·.vector.line = line) := by
  rw [h.counts, UInt64.toNat_ofNat']
  exact Nat.mod_eq_of_lt (Nat.lt_of_le_of_lt List.countP_le_length hpast)

/-- As long as the log has room for all entries it holds as many for a line as are counted. -/
theorem countP_log (h : c.Records past) (hpast : past.length ≤ logCapacity) (line : Line) :
    c.log.countP (·.vector.line = line) = (c.counts.of line).toNat := by
  have hlog : c.log = entries past := by
    rw [h.log_eq, List.rtake, length_entries, Nat.sub_eq_zero_of_le hpast, List.drop_zero]
  have hsmall : past.length < UInt64.size := Nat.lt_of_le_of_lt hpast (by decide)
  calc c.log.countP (·.vector.line = line)
      = ((entries past).map (·.vector)).countP (·.line = line) := by
        rw [hlog, List.countP_map]
        rfl
    _ = past.countP (·.vector.line = line) := by
        rw [map_vector_entries, List.countP_map]
        rfl
    _ = (c.counts.of line).toNat := (h.toNat_counts hsmall line).symm

end Records

/-- What a controller has counted and remembers after a number of moves. -/
structure KeepsLog (c : InterruptController) (settings : CpuSettings) (moves : List Move) :
    Prop where
  /-- The number of acknowledgements is the number of vectors that were returned. -/
  sequence : (c.moveAll settings moves).sequence =
    UInt64.ofNat (c.services settings moves).length
  /-- It is the sum of the counts. -/
  counts : (c.moveAll settings moves).counts.reset + (c.moveAll settings moves).counts.nmi +
    (c.moveAll settings moves).counts.irq = (c.moveAll settings moves).sequence
  /-- Nothing wraps around before there are as many acknowledgements as 64 bits can tell apart. -/
  unwrapped : (c.services settings moves).length < UInt64.size →
    (c.moveAll settings moves).sequence.toNat = (c.services settings moves).length ∧
      ∀ line, ((c.moveAll settings moves).counts.of line).toNat =
        (c.services settings moves).countP (·.vector.line = line)
  /-- The log holds the latest acknowledgements in order, each with the vector that was returned. -/
  log : (c.moveAll settings moves).log =
    (entries (c.services settings moves)).rtake logCapacity
  /-- It holds as many as there are, or as there is room for. -/
  length : (c.moveAll settings moves).log.length =
    min (c.services settings moves).length logCapacity
  /-- They are numbered one after the other, and the last one comes before the next number. -/
  numbers : ∀ number (h : number < (c.moveAll settings moves).log.length),
    (c.moveAll settings moves).log[number].sequence = (c.moveAll settings moves).sequence -
      UInt64.ofNat ((c.moveAll settings moves).log.length - number)
  /-- Each entry lists the sources that held IRQ at that moment, in increasing order. -/
  sources : ∀ service ∈ c.services settings moves, ∀ number,
    (service.entry number).irqSources.Pairwise (· < ·) ∧
      ∀ source, source ∈ (service.entry number).irqSources ↔ service.lines.holdsIrq source = true
  /-- As long as the log has room for all, it holds as many for each line as are counted. -/
  perLine : (c.services settings moves).length ≤ logCapacity → ∀ line,
    (c.moveAll settings moves).log.countP (·.vector.line = line) =
      ((c.moveAll settings moves).counts.of line).toNat

/-- The counts and the log of a new controller tell of all acknowledgements, whatever is done. -/
theorem keepsLog (settings : CpuSettings) (moves : List Move) :
    ({} : InterruptController).KeepsLog settings moves := by
  have hrecords := Records.start.moveAll settings moves
  rw [List.nil_append] at hrecords
  refine ⟨hrecords.sequence, hrecords.sum_counts, fun hsmall => ⟨?_, hrecords.toNat_counts hsmall⟩,
    hrecords.log_eq, hrecords.length_log, fun number h => hrecords.getElem_log_sequence h,
    fun service _ _ => ⟨service.lines.irqSources.increasing, fun _ => decide_eq_true_iff.symm⟩,
    fun hroom line => hrecords.countP_log hroom line⟩
  rw [hrecords.sequence, UInt64.toNat_ofNat']
  exact Nat.mod_eq_of_lt hsmall

/-- A masked request is not taken up, and putting the lines to rest leaves the log alone. -/
example : (({} : InterruptController).moveAll {} [.ask (.request "uart" .irq),
    .ask (.acknowledge true), .ask (.acknowledge false), .ask .releaseAll]).log =
      [⟨0, ⟨0xFFFE, .irq⟩, ["uart"]⟩] := by
  decide

end InterruptController

end W65C02
