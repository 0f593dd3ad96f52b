import W65C02.Cpu

/-!
# Calls of the host

A host lets cycles pass by asking for a number of them or for the rest of an instruction. However
it splits them into calls, only their total counts.
-/

namespace W65C02.Cpu

variable {β : Type} [Bus β]

/-- A call by which a host lets cycles pass. -/
inductive Call where
  /-- A number of cycles. -/
  | tick (budget : Nat)
  /-- Up to the end of an instruction or interrupt sequence. -/
  | step

/-- Carries out one call and tells how many cycles it took. -/
def call (c : Cpu β) : Call → Nat × Cpu β
  | .tick budget => (budget, c.tick budget)
  | .step => c.step

/-- Carries out calls one after another and tells how many cycles they took together. -/
def calls (c : Cpu β) : List Call → Nat × Cpu β
  | [] => (0, c)
  | first :: rest =>
    let (spent, c) := c.call first
    let (more, c) := c.calls rest
    (spent + more, c)

/-- The last of several cycles comes after the others. -/
theorem tick_succ (c : Cpu β) (n : Nat) : c.tick (n + 1) = (c.tick n).cycle.2 := by
  rw [tick_add]
  rfl

/-- A step is a number of cycles, and it tells how many. -/
theorem stepWithin_eq_tick (c : Cpu β) (limit : Nat) :
    c.stepWithin limit = ((c.stepWithin limit).1, c.tick (c.stepWithin limit).1) := by
  induction limit generalizing c with
  | zero => rfl
  | succ limit ih =>
    unfold stepWithin
    by_cases hgo : (c.cycle.1 && c.cycle.2.inFlight.isSome) = true
    · simp only [if_pos hgo]
      rw [ih c.cycle.2]
      rfl
    · simp only [if_neg hgo]
      rfl

/-- A call is as many cycles as it tells. -/
theorem call_eq_tick (c : Cpu β) (call : Call) :
    c.call call = ((c.call call).1, c.tick (c.call call).1) := by
  cases call with
  | tick budget => rfl
  | step => exact c.stepWithin_eq_tick stepLimit

/-- However the host splits its calls, what counts is how many cycles they take together. -/
theorem calls_eq_tick (c : Cpu β) (calls : List Call) :
    c.calls calls = ((c.calls calls).1, c.tick (c.calls calls).1) := by
  induction calls generalizing c with
  | nil => rfl
  | cons first rest ih =>
    simp only [Cpu.calls]
    rw [call_eq_tick c first, ih]
    simp only [tick_add]

/-- A step runs to the first instruction boundary, if the processor is under way until then. -/
theorem stepWithin_eq_of_inFlight {c : Cpu β} {n : Nat}
    (hprogress : ∀ k < n + 1, (c.tick k).cycle.1 = true)
    (hflight : ∀ k < n, (c.tick (k + 1)).inFlight.isSome = true)
    (hdone : (c.tick (n + 1)).inFlight = none) {limit : Nat} (hlimit : n < limit) :
    c.stepWithin limit = (n + 1, c.tick (n + 1)) := by
  induction n generalizing c limit with
  | zero =>
    obtain ⟨limit, rfl⟩ := Nat.exists_eq_succ_of_ne_zero (by omega : limit ≠ 0)
    have hnone : c.cycle.2.inFlight = none := hdone
    simp only [stepWithin, hnone, Option.isSome_none, Bool.and_false, Bool.false_eq_true,
      if_false]
    rfl
  | succ n ih =>
    obtain ⟨limit, rfl⟩ := Nat.exists_eq_succ_of_ne_zero (by omega : limit ≠ 0)
    have hfirst : c.cycle.1 = true := hprogress 0 (by omega)
    have hsome : c.cycle.2.inFlight.isSome = true := hflight 0 (by omega)
    have hrest : c.cycle.2.stepWithin limit = _ :=
      ih (fun k hk => hprogress (k + 1) (by omega)) (fun k hk => hflight (k + 1) (by omega)) hdone
        (by omega)
    simp only [stepWithin, hfirst, hsome, Bool.and_true, if_true, hrest]
    rfl

end W65C02.Cpu
