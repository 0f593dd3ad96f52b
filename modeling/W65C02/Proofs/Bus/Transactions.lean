import W65C02.Proofs.Bus.Traced

/-!
# What is asked of a bus

A transaction is an access as the processor asks for it: a read names its address, a write also the
byte. Over memory transactions become accesses, each read with the byte that it finds. A traced
memory that records writes down these accesses and nothing else.
-/

namespace W65C02

/-- What is asked of a bus in one access. -/
inductive Transaction where
  /-- The byte at an address. -/
  | read (address : UInt16)
  /-- That a byte be stored at an address. -/
  | write (address : UInt16) (value : UInt8)
  deriving DecidableEq

namespace Transaction

/-- The address that is written to. -/
def written? : Transaction → Option UInt16
  | read _ => none
  | write address _ => some address

/-- A word is read, the low byte first. -/
def pointer (address : UInt16) : List Transaction := [read address, read (address + 1)]

/-- A word is read from page zero, the low byte first. -/
def zeroPagePointer (address : UInt8) : List Transaction :=
  [read address.toUInt16, read (address + 1).toUInt16]

/-- A number of bytes are read from consecutive addresses. -/
def fetches (pc : UInt16) : Nat → List Transaction
  | 0 => []
  | count + 1 => read pc :: fetches (pc + 1) count

/-- The last fetch is from the last address. -/
theorem fetches_succ (pc : UInt16) (count : Nat) :
    fetches pc (count + 1) = fetches pc count ++ [read (pc + UInt16.ofNat count)] := by
  induction count generalizing pc with
  | zero =>
    have hpc : pc + UInt16.ofNat 0 = pc := UInt16.add_zero pc
    rw [hpc]
    rfl
  | succ count ih =>
    have hlast : pc + 1 + UInt16.ofNat count = pc + UInt16.ofNat (count + 1) := by
      rw [UInt16.add_assoc, UInt16.add_comm 1, UInt16.ofNat_add]
      rfl
    rw [fetches, ih, hlast]
    rfl

/-- There are as many fetches as are asked for. -/
@[simp] theorem length_fetches (pc : UInt16) (count : Nat) : (fetches pc count).length = count := by
  induction count generalizing pc with
  | zero => rfl
  | succ count ih => exact congrArg (· + 1) (ih _)

/-- Fetching writes nothing. -/
@[simp] theorem written_fetches (pc : UInt16) (count : Nat) :
    (fetches pc count).filterMap written? = [] := by
  induction count generalizing pc with
  | zero => rfl
  | succ count ih => exact ih _

end Transaction

namespace Port

variable {β : Type} [Bus β]

/-- The world after a transaction. -/
def transact (port : Port β) : Transaction → Port β
  | .read address => (port.read address).2
  | .write address value => port.write address value

/-- The world after a number of transactions, the first one being carried out first. -/
def transactAll (port : Port β) (transactions : List Transaction) : Port β :=
  transactions.foldl transact port

/-- Some transactions after others. -/
theorem transactAll_append (port : Port β) (first later : List Transaction) :
    port.transactAll (first ++ later) = (port.transactAll first).transactAll later :=
  List.foldl_append

end Port

namespace Memory

/-- The access that a transaction becomes. -/
def access (m : Memory) : Transaction → Access
  | .read address => ⟨.read, address, m.read address⟩
  | .write address value => ⟨.write, address, value⟩

/-- The accesses that transactions become, one after another. -/
def accesses (m : Memory) : List Transaction → List Access
  | [] => []
  | first :: rest => m.access first :: (m.after (m.access first)).accesses rest

/-- Each transaction is one access. -/
@[simp] theorem length_accesses (m : Memory) (transactions : List Transaction) :
    (m.accesses transactions).length = transactions.length := by
  induction transactions generalizing m with
  | nil => rfl
  | cons first rest ih => exact congrArg (· + 1) (ih _)

/-- Nothing but what is to be written is written. -/
theorem written_accesses (m : Memory) (transactions : List Transaction) :
    ((m.accesses transactions).filter (·.direction = .write)).map (·.address) =
      transactions.filterMap Transaction.written? := by
  induction transactions generalizing m with
  | nil => rfl
  | cons first rest ih =>
    cases first with
    | read address => exact ih _
    | write address value => exact congrArg (address :: ·) (ih _)

/-- A cell that is not written to keeps its byte. -/
theorem read_replay_accesses (m : Memory) {transactions : List Transaction} {address : UInt16}
    (haddress : address ∉ transactions.filterMap Transaction.written?) :
    (m.replay (m.accesses transactions)).read address = m.read address := by
  induction transactions generalizing m with
  | nil => rfl
  | cons first rest ih =>
    cases first with
    | read other => exact ih m haddress
    | write other value =>
      obtain ⟨hother, hrest⟩ := not_or.mp (mt List.mem_cons.mpr haddress)
      have hfirst : (m.write other value).read address = m.read address := by
        rw [read_write, if_neg (Ne.symm hother)]
      exact (ih (m.write other value) hrest).trans hfirst

end Memory

/-- A traced memory that records enters every transaction into its record, as the access that it
becomes. -/
theorem Traced.transactAll_eq (inner : Memory) (log : Array Access) (lines : Lines)
    (transactions : List Transaction) :
    (⟨⟨inner, log, true⟩, lines⟩ : Port (Traced Memory)).transactAll transactions =
      ⟨⟨inner.replay (inner.accesses transactions),
        log ++ (inner.accesses transactions).toArray, true⟩, lines⟩ := by
  induction transactions generalizing inner log with
  | nil => simp [Port.transactAll, Memory.accesses, Memory.replay]
  | cons first rest ih =>
    have hrecord : log.push (inner.access first) ++
        ((inner.after (inner.access first)).accesses rest).toArray =
        log ++ (inner.accesses (first :: rest)).toArray := by
      simp [Memory.accesses]
    rw [← hrecord]
    cases first with
    | read address => exact ih inner _
    | write address value => exact ih (inner.write address value) _

end W65C02
