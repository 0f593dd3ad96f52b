import W65C02.Bus.Memory
import W65C02.Bus.Traced
import W65C02.Proofs.Cpu.Simulation

/-!
# What a traced bus shows and what it writes down

A processor on a traced bus cannot tell it from the bus behind it, whether accesses are recorded or
not. A record of all accesses to a memory is its history: the recorded writes lead from the bytes
that were there in the beginning to those that are there now, and each recorded read shows the byte
that was there at its time.
-/

namespace W65C02

/-- A port without the trace. -/
def Port.untraced {β : Type} (p : Port (Traced β)) : Port β := ⟨p.bus.inner, p.lines⟩

/-- A port with a trace that records what follows after what is in it already. -/
def Port.recorded {β : Type} (p : Port β) (log : Array Access) : Port (Traced β) :=
  ⟨⟨p.bus, log, true⟩, p.lines⟩

/-- A traced bus answers as the bus behind it. -/
theorem Traced.simulation {β : Type} [Bus β] :
    Bus.Simulation fun (p : Port (Traced β)) (q : Port β) => p.untraced = q := by
  constructor
  -- The record has no part in what is compared, so both sides are the same access.
  all_goals
    rintro p _
    intros
    subst_vars
    rfl

namespace Memory

/-- Memory after an access. -/
def after (m : Memory) (access : Access) : Memory :=
  match access.direction with
  | .read => m
  | .write => m.write access.address access.value

/-- Memory after a number of accesses, oldest first. -/
def replay (m : Memory) (accesses : List Access) : Memory := accesses.foldl after m

/-- The last access is replayed last. -/
theorem replay_concat (m : Memory) (accesses : List Access) (access : Access) :
    m.replay (accesses ++ [access]) = (m.replay accesses).after access :=
  List.foldl_append

end Memory

namespace Traced

/-- A record is the history of a memory since it had the bytes of an image. -/
structure IsHistory (image : Memory) (log : Array Access) (memory : Memory) : Prop where
  /-- The recorded writes lead from the image to the memory. -/
  replay : image.replay log.toList = memory
  /-- A recorded read shows the byte that the accesses before it have left at its address. -/
  reads : ∀ (i : ℕ) access, log[i]? = some access → access.direction = .read →
    access.value = (image.replay (log.toList.take i)).read access.address

namespace IsHistory

variable {image memory : Memory} {log : Array Access}

/-- Where nothing has been recorded nothing has happened. -/
theorem empty (image : Memory) : IsHistory image #[] image := by
  constructor
  · rfl
  · intro i access haccess
    cases haccess

/-- One more access is recorded. If it is a read it shows the present byte. -/
theorem push (h : IsHistory image log memory) {access : Access}
    (hread : access.direction = .read → access.value = memory.read access.address) :
    IsHistory image (log.push access) (memory.after access) := by
  constructor
  · rw [Array.toList_push, Memory.replay_concat, h.replay]
  · intro i entry hentry hdirection
    rw [Array.getElem?_push] at hentry
    rw [Array.toList_push]
    by_cases hlast : i = log.size
    · rw [if_pos hlast] at hentry
      obtain rfl := Option.some.inj hentry
      have hbefore : (log.toList ++ [access]).take i = log.toList := by
        rw [hlast, ← Array.length_toList, List.take_left]
      rw [hbefore, h.replay]
      exact hread hdirection
    · rw [if_neg hlast] at hentry
      have hlength : i ≤ log.toList.length := by
        obtain ⟨hi, -⟩ := Array.getElem?_eq_some_iff.mp hentry
        rw [Array.length_toList]
        exact Nat.le_of_lt hi
      rw [List.take_append_of_le_length hlength]
      exact h.reads i entry hentry hdirection

end IsHistory

/-- All accesses to a memory are recorded, and the record is its history since it had the bytes of
an image. -/
structure Records (image : Memory) (t : Traced Memory) : Prop where
  /-- Recording is on. -/
  recording : t.recording = true
  /-- The record is the history. -/
  history : IsHistory image t.log t.inner

/-- A trace that tells of all accesses still does so with one more, if a byte that was read was
there. -/
theorem Records.note {image : Memory} {t : Traced Memory} (h : t.Records image) (access : Access)
    (hread : access.direction = .read → access.value = t.inner.read access.address) :
    Records image ⟨t.inner.after access, note t.log t.recording access, t.recording⟩ := by
  rw [h.recording]
  exact ⟨rfl, h.history.push hread⟩

/-- No access that goes through the traced bus is missing in the record. -/
theorem recordsInvariant (image : Memory) :
    Bus.Invariant fun port : Port (Traced Memory) => port.bus.Records image where
  read {port address} h := h.note ⟨.read, address, port.bus.inner.read address⟩ fun _ => rfl
  write {_ address value} h := h.note ⟨.write, address, value⟩ nofun
  setLines _ h := h

end Traced

end W65C02
