import W65C02.Settings

/-!
# The interrupt controller

The controller decides which request the processor serves next and keeps a log of what was
acknowledged: a count per line, and the most recent acknowledgements with the sources that
held IRQ at that moment.
-/

namespace W65C02

/-- An acknowledged request: the line, and where the address of its routine is stored. -/
structure InterruptVector where
  /-- Where the address of the routine is stored. -/
  address : UInt16
  /-- The line that was served. -/
  line : Line
  deriving DecidableEq

/-- One entry of the log. -/
structure Acknowledgement where
  /-- The number of acknowledgements before this one. -/
  sequence : UInt64
  /-- What was acknowledged. -/
  vector : InterruptVector
  /-- The sources that held IRQ at that moment, in increasing order. -/
  irqSources : List String
  deriving DecidableEq

/-- How often each line was acknowledged. -/
structure LineCounts where
  /-- Acknowledged resets. -/
  reset : UInt64 := 0
  /-- Acknowledged NMI edges. -/
  nmi : UInt64 := 0
  /-- Acknowledged IRQs. -/
  irq : UInt64 := 0
  deriving DecidableEq

/-- The counts after one more acknowledgement. -/
def LineCounts.count (counts : LineCounts) : Line → LineCounts
  | .reset => { counts with reset := counts.reset + 1 }
  | .nmi => { counts with nmi := counts.nmi + 1 }
  | .irq => { counts with irq := counts.irq + 1 }

/-- How many acknowledgements the log remembers. -/
def logCapacity : Nat := 1000

/-- The name under which the host's own requests appear. -/
def hostSource : String := "external"

/-- The request lines together with the log of acknowledgements. -/
structure InterruptController where
  /-- The request lines. -/
  lines : Lines := {}
  /-- Counts per line. -/
  counts : LineCounts := {}
  /-- The remembered acknowledgements, newest first. -/
  recent : List Acknowledgement := []
  /-- The number of all acknowledgements. -/
  sequence : UInt64 := 0
  deriving DecidableEq

namespace InterruptController

/-- The remembered acknowledgements, oldest first. -/
def log (c : InterruptController) : List Acknowledgement := c.recent.reverse

/-- A source asks for attention on a line. -/
def request (c : InterruptController) (source : String) (line : Line) : InterruptController :=
  { c with lines := c.lines.request source line }

/-- A source gives up its request on a line. -/
def release (c : InterruptController) (source : String) (line : Line) : InterruptController :=
  { c with lines := c.lines.release source line }

/-- Raises the NMI level and lowers it again. -/
def nmiPulse (c : InterruptController) (source : String) : InterruptController :=
  { c with lines := c.lines.nmiPulse source }

/-- Puts all lines to rest. The log is kept. -/
def releaseAll (c : InterruptController) : InterruptController := { c with lines := .idle }

/-- Gives the lines the state that a snapshot describes. The log is kept. -/
def restore (c : InterruptController) (p : LinesSnapshot) : InterruptController :=
  { c with lines := Lines.ofSnapshot p }

/-- Enters an acknowledgement into the log, dropping the oldest entry when it is full. -/
def enter (c : InterruptController) (vector : InterruptVector) : InterruptController :=
  { c with
    counts := c.counts.count vector.line
    recent := (⟨c.sequence, vector, c.lines.irqSources.names⟩ :: c.recent).take logCapacity
    sequence := c.sequence + 1 }

/-- Acknowledges the most urgent request that the mask lets through, if there is one. -/
def acknowledge (c : InterruptController) (settings : CpuSettings) (irqDisabled : Bool) :
    Option InterruptVector × InterruptController :=
  match c.lines.next irqDisabled with
  | none => (none, c)
  | some line =>
    let vector : InterruptVector := ⟨settings.vectorOf line, line⟩
    (some vector, { c with lines := c.lines.serve line }.enter vector)

end InterruptController

end W65C02
