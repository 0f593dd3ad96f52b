import W65C02.Interrupt.SourceSet

/-!
# Interrupt request lines

Three lines lead to the processor. RESET is a request that stays until it is served or
withdrawn; NMI latches the rising edge of its level; IRQ is active as long as at least one
source holds it.
-/

namespace W65C02

/-- A line on which peripherals ask for attention, in falling order of priority. -/
inductive Line where
  | reset
  | nmi
  | irq
  deriving DecidableEq

/-- How a line is written. -/
def Line.label : Line → String
  | .reset => "Reset"
  | .nmi => "Nmi"
  | .irq => "Irq"

/-- The state of all request lines. -/
structure Lines where
  /-- A reset has been requested and not yet served. -/
  reset : Bool := false
  /-- A rising edge of the NMI level has been seen and not yet served. -/
  nmi : Bool := false
  /-- The present level of the NMI line. -/
  nmiLevel : Bool := false
  /-- The sources that hold the IRQ line. -/
  irqSources : SourceSet := .empty
  deriving DecidableEq

/-- The lines as a snapshot lists them; the sources may come in any order there. -/
structure LinesSnapshot where
  /-- A reset is requested. -/
  reset : Bool := false
  /-- A rising NMI edge is latched. -/
  nmi : Bool := false
  /-- The level of the NMI line. -/
  nmiLine : Bool := false
  /-- The sources that hold IRQ. -/
  irqSources : List String := []
  deriving DecidableEq

namespace Lines

/-- All lines at rest. -/
def idle : Lines := {}

/-- A source asks for attention on a line. Only a rising level latches an NMI. -/
def request (lines : Lines) (source : String) : Line → Lines
  | .reset => { lines with reset := true }
  | .nmi => { lines with nmi := lines.nmi || !lines.nmiLevel, nmiLevel := true }
  | .irq => { lines with irqSources := lines.irqSources.insert source }

/-- A source gives up its request on a line. A latched NMI edge stays latched. -/
def release (lines : Lines) (source : String) : Line → Lines
  | .reset => { lines with reset := false }
  | .nmi => { lines with nmiLevel := false }
  | .irq => { lines with irqSources := lines.irqSources.erase source }

/-- Raises the NMI level and lowers it again. -/
def nmiPulse (lines : Lines) (source : String) : Lines :=
  (lines.request source .nmi).release source .nmi

/-- Whether a source holds the IRQ line. -/
def holdsIrq (lines : Lines) (source : String) : Bool :=
  lines.irqSources.contains source

/-- The line that is served next, if any: RESET, then NMI, then IRQ unless it is masked. -/
def next (lines : Lines) (irqDisabled : Bool) : Option Line :=
  if lines.reset then some .reset
  else if lines.nmi then some .nmi
  else if !irqDisabled && !lines.irqSources.isEmpty then some .irq
  else none

/-- Whether anything would be served, given the mask. -/
def pending (lines : Lines) (irqDisabled : Bool) : Bool :=
  lines.reset || lines.nmi || (!irqDisabled && !lines.irqSources.isEmpty)

/-- Whether any line is active, masked or not. -/
def anyActive (lines : Lines) : Bool := lines.pending false

/-- The lines after the request on a line has been taken up. Sources keep holding IRQ until
they release it themselves. -/
def serve (lines : Lines) : Line → Lines
  | .reset => { lines with reset := false }
  | .nmi => { lines with nmi := false }
  | .irq => lines

/-- The lines as a snapshot lists them. -/
def toSnapshot (lines : Lines) : LinesSnapshot :=
  ⟨lines.reset, lines.nmi, lines.nmiLevel, lines.irqSources.names⟩

/-- The lines that a snapshot describes. -/
def ofSnapshot (p : LinesSnapshot) : Lines :=
  ⟨p.reset, p.nmi, p.nmiLine, SourceSet.ofList p.irqSources⟩

/-- There is a line to serve exactly if something is pending. -/
theorem next_isSome (lines : Lines) (irqDisabled : Bool) :
    (lines.next irqDisabled).isSome = lines.pending irqDisabled := by
  unfold next pending
  cases lines.reset <;> cases lines.nmi <;> simp
  split <;> simp_all

end Lines

end W65C02
