/-
**Time sources.**

Hashes depend on the time, so where that time comes from is a value of its own: a fixed instant, a
clock that moves on by a set step after each reading, or the readings that a wall clock will give.

Main definitions:

* `Clock` — a source of time, as it stands;
* `Clock.read` — a reading, and the clock afterwards;
* `Clock.set` — puts a stepping clock to another time;
* `Clock.readings` — the next few readings.
-/

import RevisionStore.Timestamp

set_option autoImplicit false

namespace RevisionStore

/-- A source of time.  A wall clock is the sequence of readings that it is still to give. -/
inductive Clock where
  | fixed (time : Timestamp)
  | stepping (next : Timestamp) (step : Int64)
  | wall (readings : Nat → Timestamp)

namespace Clock

/-- The time now, and the clock afterwards. -/
def read : Clock → Timestamp × Clock
  | fixed time => (time, fixed time)
  | stepping next step => (next, stepping (next.advance step) step)
  | wall readings => (readings 0, wall fun n => readings (n + 1))

@[simp] theorem read_fixed (time : Timestamp) : (fixed time).read = (time, fixed time) := rfl

@[simp] theorem read_stepping (next : Timestamp) (step : Int64) :
    (stepping next step).read = (next, stepping (next.advance step) step) := rfl

/-- Puts a stepping clock to another time; no other clock can be set. -/
def set (c : Clock) (time : Timestamp) : Clock :=
  match c with
  | stepping _ step => stepping time step
  | other => other

/-- The next `n` readings. -/
def readings : Nat → Clock → List Timestamp
  | 0, _ => []
  | n + 1, c => c.read.1 :: readings n c.read.2

end Clock

end RevisionStore
