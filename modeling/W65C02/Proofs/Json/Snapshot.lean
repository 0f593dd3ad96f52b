import W65C02.Emulator
import W65C02.Proofs.Json.Text

/-!
# Snapshots as JSON and back

What is written of a snapshot is read back as it was. Each type is read from what is written of it,
records by the names of their fields. The state of a device carries a field that tells its kind
among its own fields; as none of these has the same name, it is not in their way. No more levels of
arrays and objects are needed than the reader takes, and no numbers that do not fit, so the text of
a snapshot can always be read.
-/

namespace W65C02

open Json

namespace Json

/-! ### Numbers, lists and fields -/

variable {levels : Nat}

/-- A byte is read back, -/
@[simp] theorem byte?_ofNat (b : UInt8) : (ofNat b.toNat).byte? = some b := by
  have hfits : b.toNat < UInt8.size := b.toNat_lt
  simp [byte?, ofNat, natBelow?, hfits]

/-- so is a word, -/
@[simp] theorem word?_ofNat (w : UInt16) : (ofNat w.toNat).word? = some w := by
  have hfits : w.toNat < UInt16.size := w.toNat_lt
  simp [word?, ofNat, natBelow?, hfits]

/-- and a count. -/
@[simp] theorem uint64?_ofNat (n : UInt64) : (ofNat n.toNat).uint64? = some n := by
  have hfits : n.toNat < UInt64.size := n.toNat_lt
  simp [uint64?, ofNat, natBelow?, hfits]

/-- A byte is written without any levels, -/
@[simp] theorem plain_byte (b : UInt8) : Plain levels (ofNat b.toNat) :=
  .ofNat (Nat.lt_trans b.toNat_lt (by decide))

/-- so is a word, -/
@[simp] theorem plain_word (w : UInt16) : Plain levels (ofNat w.toNat) :=
  .ofNat (Nat.lt_trans w.toNat_lt (by decide))

/-- and a count. -/
@[simp] theorem plain_uint64 (n : UInt64) : Plain levels (ofNat n.toNat) := .ofNat n.toNat_lt

attribute [simp] Plain.null Plain.bool Plain.string

/-- A field with another name is passed over. -/
theorem valuesOf_cons_of_ne {name other : String} (h : other ≠ name) {value : Json}
    {fields : List (String × Json)} :
    valuesOf ((other, value) :: fields) name = valuesOf fields name := by
  simp [valuesOf, h]

/-- Data of some type are written with at most so many levels of arrays and objects, and read back
as they were. -/
structure RoundTrip {α : Type} (levels : Nat) (toJson : α → Json) (ofJson? : Json → Option α) :
    Prop where
  /-- What is written is plain. -/
  plain : ∀ a, Plain levels (toJson a)
  /-- It is read back. -/
  read : ∀ a, ofJson? (toJson a) = some a

namespace RoundTrip

variable {α : Type} {toJson : α → Json} {ofJson? : Json → Option α}

/-- A list is read back if its elements are. -/
theorem list (h : RoundTrip levels toJson ofJson?) :
    RoundTrip (levels + 1) (fun as : List α => array (as.map toJson)) (list? ofJson?) where
  plain as := .array (List.forall_mem_map.mpr fun a _ => h.plain a)
  read as := by
    change (as.map toJson).mapM ofJson? = some as
    induction as with
    | nil => rfl
    | cons a as ih => simp [h.read, ih]

/-- What may be missing is written with no more levels than what it is if present. -/
theorem plain_ofOption (h : RoundTrip levels toJson ofJson?) (a : Option α) :
    Plain levels (ofOption toJson a) := by
  cases a with
  | none => exact .null
  | some a => exact h.plain a

/-- A field that may be missing is read back: it is written as null if it is missing, and never
else. -/
theorem optional?_ofOption (h : RoundTrip levels toJson ofJson?) (hnull : ∀ a, toJson a ≠ null)
    {fields : List (String × Json)} {name : String} {a : Option α}
    (hvalue : valuesOf fields name = [ofOption toJson a]) :
    optional? fields name ofJson? = some a := by
  cases a with
  | none => simp [optional?, hvalue, ofOption]
  | some a =>
    have hsome := hnull a
    simp [optional?, hvalue, ofOption, h.read]

/-- What was written as text is read back from it. -/
theorem parse?_render (h : RoundTrip levels toJson ofJson?) (hlevels : levels ≤ nestingLimit)
    (a : α) : (parse? (toJson a).render).bind ofJson? = some a := by
  rw [Json.parse?_render ((h.plain a).mono hlevels), Option.bind_some, h.read]

end RoundTrip

end Json

/-! ### The processor -/

/-- Registers are read back. -/
theorem Registers.roundTrip : RoundTrip 1 toJson ofJson? where
  plain r := .object (by simp)
  read r := by simp [toJson, ofJson?, record?, required?, valuesOf]

/-- A run mode is read back from its label, -/
theorem RunMode.roundTrip (style : LabelStyle) :
    RoundTrip 0 (fun mode => string (label mode)) (ofJson? style) where
  plain mode := .string _
  read mode := by cases mode <;> rfl

/-- so is a line, -/
theorem Line.roundTrip (style : LabelStyle) :
    RoundTrip 0 (fun line => string (label line)) (ofJson? style) where
  plain line := .string _
  read line := by cases line <;> rfl

/-- and a phase. -/
theorem Phase.roundTrip (style : LabelStyle) :
    RoundTrip 0 (fun phase => string (label phase)) (ofJson? style) where
  plain phase := .string _
  read phase := by cases phase <;> rfl

/-- A vector is read back. -/
theorem InterruptVector.roundTrip (style : LabelStyle) : RoundTrip 1 toJson (ofJson? style) where
  plain vector := .object (by simp)
  read vector := by
    simp [toJson, ofJson?, record?, required?, valuesOf, (Line.roundTrip style).read]

/-- An activity is read back, -/
theorem Activity.roundTrip (style : LabelStyle) : RoundTrip 2 toJson (ofJson? style) where
  plain activity := by
    cases activity with
    | instruction => exact .string _
    | interrupt vector =>
      exact .object (List.forall_mem_singleton.mpr ((InterruptVector.roundTrip style).plain vector))
  read activity := by
    cases activity with
    | instruction => rfl
    | interrupt vector => simp [toJson, ofJson?, (InterruptVector.roundTrip style).read]

/-- the operand bytes are, -/
theorem Operand.roundTrip : RoundTrip 1 toJson ofJson? where
  plain operand := .array (by simp)
  read operand := by
    have hpair : #v[operand[0], operand[1]] = operand := by
      ext i hi
      obtain rfl | rfl : i = 0 ∨ i = 1 := by omega
      · rfl
      · rfl
    simp [toJson, ofJson?, first, second, hpair]

/-- each single byte is, -/
theorem byte_roundTrip : RoundTrip 0 (fun value : UInt8 => ofNat value.toNat) byte? where
  plain value := plain_byte value
  read value := byte?_ofNat value

/-- and so is all that is in flight. -/
theorem InFlight.roundTrip (style : LabelStyle) : RoundTrip 3 toJson (ofJson? style) where
  plain flight := by
    have hkind := (Activity.roundTrip style).plain flight.activity
    have hoperand := (Operand.roundTrip.plain flight.operand).mono (show 1 ≤ 2 by decide)
    have hresult := (byte_roundTrip.plain_ofOption flight.nzResult).mono (show 0 ≤ 2 by decide)
    exact .object (by simp [hkind, hoperand, hresult])
  read flight := by
    simp only [toJson, ofJson?, record?, Option.bind_eq_bind, Option.bind_some]
    rw [byte_roundTrip.optional?_ofOption (a := flight.nzResult) nofun (by simp [valuesOf])]
    simp [required?, valuesOf, (Activity.roundTrip style).read, (Phase.roundTrip style).read,
      Operand.roundTrip.read, bool?]

/-- Strings are read back, -/
theorem string_roundTrip : RoundTrip 0 Json.string string? where
  plain text := .string text
  read _ := rfl

/-- so are lines, -/
theorem LinesSnapshot.roundTrip : RoundTrip 2 toJson ofJson? where
  plain lines := by
    have hsources := string_roundTrip.list.plain lines.irqSources
    exact .object (by simp [hsources])
  read lines := by
    have hsources := string_roundTrip.list.read lines.irqSources
    simp [toJson, ofJson?, record?, required?, valuesOf, bool?, hsources]

/-- The state of a processor reads the same from an object with a tag. None of its fields has the
name of the tag. -/
theorem CpuSnapshot.ofJson?_tagged (style : LabelStyle) (kind : Json)
    (fields : List (String × Json)) :
    ofJson? style (object (("kind", kind) :: fields)) = ofJson? style (object fields) := by
  simp [ofJson?, record?, required?, defaulted?, optional?, valuesOf_cons_of_ne]

/-- and all fields of the state of a processor are plain, -/
theorem CpuSnapshot.plain_toFields (s : CpuSnapshot) :
    ∀ field ∈ s.toFields, Plain 3 field.2 := by
  have hregisters := (Registers.roundTrip.plain s.registers).mono (show 1 ≤ 3 by decide)
  have hpending := (LinesSnapshot.roundTrip.plain s.pending).mono (show 2 ≤ 3 by decide)
  have hcontext := (InFlight.roundTrip .strict).plain_ofOption s.inFlight
  simp [toFields, hregisters, hpending, hcontext]

/-- and read back. -/
theorem CpuSnapshot.roundTrip (style : LabelStyle) : RoundTrip 4 toJson (ofJson? style) where
  plain s := .object s.plain_toFields
  read s := by
    have hcontext : optional? s.toFields "context" (InFlight.ofJson? style) = some s.inFlight :=
      (InFlight.roundTrip style).optional?_ofOption nofun (by simp [toFields, valuesOf])
    simp only [toJson, ofJson?, record?, Option.bind_eq_bind, Option.bind_some, hcontext]
    simp [toFields, required?, defaulted?, valuesOf, Registers.roundTrip.read,
      (RunMode.roundTrip style).read, LinesSnapshot.roundTrip.read]

/-! ### Devices -/

/-- The registers of a timer are read back from among other fields, -/
theorem TimerRegisters.ofJson?_tagged (kind : Json) (state : TimerRegisters) :
    ofJson? (object (("kind", kind) :: state.toFields)) = some state := by
  simp [toFields, ofJson?, record?, required?, valuesOf, bool?]

/-- so are those of a controller, -/
theorem DmaRegisters.ofJson?_tagged (kind : Json) (state : DmaRegisters) :
    ofJson? (object (("kind", kind) :: state.toFields)) = some state := by
  simp [toFields, ofJson?, record?, required?, valuesOf, bool?]

/-- and the bytes of a memory. -/
theorem MemoryBytes.ofJson?_tagged (kind : Json) (bytes : Array UInt8) :
    ofJson? (object [("kind", kind), ("bytes", array (bytes.toList.map fun b => ofNat b.toNat))]) =
      some bytes := by
  have hbytes := byte_roundTrip.list.read bytes.toList
  simp [ofJson?, record?, required?, valuesOf, hbytes]

/-- The state of a device has four levels at most. -/
theorem DeviceSnapshot.plain_toJson (s : DeviceSnapshot) : Plain 4 s.toJson := by
  refine .object (List.forall_mem_cons.mpr ⟨.string _, ?_⟩)
  cases s with
  | memory bytes =>
    have hbytes := (byte_roundTrip.list.plain bytes.toList).mono (show 1 ≤ 3 by decide)
    exact List.forall_mem_singleton.mpr hbytes
  | timer state => simp [toFields, TimerRegisters.toFields]
  | dma state => simp [toFields, DmaRegisters.toFields]
  | cpu state => exact state.plain_toFields

/-- The kind of a device is found among its fields, and then these are read by the rule for that
kind. -/
theorem DeviceSnapshot.roundTrip : RoundTrip 4 toJson ofJson? where
  plain := plain_toJson
  read s := by
    have hreadable : guard (s.toJson.isReadable = true) = some () :=
      if_pos s.plain_toJson.isReadable
    have hkind : s.toJson.kind? = some (s.kind, s.toJson) := by
      cases s <;> simp [toJson, Json.kind?, required?, valuesOf, toFields, TimerRegisters.toFields,
        DmaRegisters.toFields, CpuSnapshot.toFields, string?]
    rw [ofJson?, hreadable]
    simp only [hkind, Option.bind_eq_bind, Option.bind_some]
    cases s with
    | memory bytes => simp [toJson, kind, toFields, MemoryBytes.ofJson?_tagged]
    | timer state => simp [toJson, kind, toFields, TimerRegisters.ofJson?_tagged]
    | dma state => simp [toJson, kind, toFields, DmaRegisters.ofJson?_tagged]
    | cpu state =>
      have hread := (CpuSnapshot.roundTrip .lax).read state
      rw [CpuSnapshot.toJson] at hread
      simp [toJson, kind, toFields, CpuSnapshot.ofJson?_tagged, hread]

/-- The state of a mapping is read back, -/
theorem MappingSnapshot.roundTrip : RoundTrip 5 toJson ofJson? where
  plain s := by
    have hstate := DeviceSnapshot.roundTrip.plain s.device
    exact .object (by simp [hstate])
  read s := by
    simp [toJson, ofJson?, record?, required?, valuesOf, string?, DeviceSnapshot.roundTrip.read]

/-! ### The bus and the machine -/

/-- so is a block to transfer, -/
theorem BlockTransfer.roundTrip : RoundTrip 1 toJson ofJson? where
  plain block := .object (by simp)
  read block := by simp [toJson, ofJson?, record?, required?, valuesOf]

/-- how far a transfer has come, -/
theorem TransferProgress.roundTrip : RoundTrip 2 toJson ofJson? where
  plain transfer := by
    have hblock := BlockTransfer.roundTrip.plain transfer.block
    have hlatch := (byte_roundTrip.plain_ofOption transfer.latch).mono (show 0 ≤ 1 by decide)
    exact .object (by simp [hblock, hlatch])
  read transfer := by
    simp only [toJson, ofJson?, record?, Option.bind_eq_bind, Option.bind_some]
    rw [byte_roundTrip.optional?_ofOption (a := transfer.latch) nofun (by simp [valuesOf])]
    simp [required?, valuesOf, BlockTransfer.roundTrip.read]

/-- who has the bus, -/
theorem Arbitration.roundTrip : RoundTrip 3 toJson ofJson? where
  plain state := by
    have hholder := (string_roundTrip.plain_ofOption state.holder).mono (show 0 ≤ 2 by decide)
    have htransfer := TransferProgress.roundTrip.plain_ofOption state.transfer
    exact .object (by simp [hholder, htransfer])
  read state := by
    simp only [toJson, ofJson?, record?, Option.bind_eq_bind, Option.bind_some]
    rw [string_roundTrip.optional?_ofOption (a := state.holder) nofun (by simp [valuesOf]),
      TransferProgress.roundTrip.optional?_ofOption (a := state.transfer) nofun
        (by simp [valuesOf])]
    rfl

/-- and the state of a machine. -/
theorem MachineSnapshot.roundTrip : RoundTrip 7 toJson ofJson? where
  plain s := by
    have hcpu := ((CpuSnapshot.roundTrip .strict).plain s.cpu).mono (show 4 ≤ 6 by decide)
    have hdevices := MappingSnapshot.roundTrip.list.plain s.devices
    have hbus := (Arbitration.roundTrip.plain s.bus).mono (show 3 ≤ 6 by decide)
    exact .object (by simp [hcpu, hdevices, hbus])
  read s := by
    have hdevices := MappingSnapshot.roundTrip.list.read s.devices
    simp [toJson, ofJson?, record?, required?, defaulted?, valuesOf,
      (CpuSnapshot.roundTrip .strict).read, hdevices, Arbitration.roundTrip.read]

/-- A text is taken over if the state that it was written from is. -/
theorem Emulator.importText_exportText (e saved : Emulator) :
    e.importText saved.exportText =
      match e.machine.restore saved.machine.snapshot with
      | .ok machine => .ok ⟨machine⟩
      | .error reason => .error (.rejected reason) := by
  have hparsed : MachineSnapshot.parse? saved.exportText = some saved.machine.snapshot :=
    MachineSnapshot.roundTrip.parse?_render (by decide) _
  cases hrestored : e.machine.restore saved.machine.snapshot with
  | ok machine => simp only [importText, hparsed, hrestored]
  | error reason => simp only [importText, hparsed, hrestored]

/-- Every state of a machine, and every state of a processor by itself, is read back from its JSON
value and from its text. So what one emulator has saved is never malformed to another one. -/
theorem roundTrip_snapshots :
    (∀ s : MachineSnapshot, MachineSnapshot.ofJson? s.toJson = some s ∧
        MachineSnapshot.parse? s.toJson.render = some s) ∧
      (∀ s : CpuSnapshot, CpuSnapshot.ofJson? .strict s.toJson = some s ∧
        (parse? s.toJson.render).bind (CpuSnapshot.ofJson? .strict) = some s) ∧
      ∀ e saved : Emulator, e.importText saved.exportText ≠ .error .malformed := by
  refine ⟨fun s => ⟨MachineSnapshot.roundTrip.read s, ?_⟩,
    fun s => ⟨(CpuSnapshot.roundTrip .strict).read s, ?_⟩, fun e saved => ?_⟩
  · exact MachineSnapshot.roundTrip.parse?_render (by decide) s
  · exact (CpuSnapshot.roundTrip .strict).parse?_render (by decide) s
  · rw [e.importText_exportText]
    cases e.machine.restore saved.machine.snapshot with
    | ok machine => nofun
    | error reason => nofun

end W65C02
