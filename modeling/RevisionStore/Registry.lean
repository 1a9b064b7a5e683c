/-
**Registries of live controllers.**

A controller has an identifier of its own and goes on existing for whoever holds that identifier.
A registry lists some controllers as live.  Closing a controller takes it off its registry and drops
its repositories; one that is not listed there is left alone.

Main definitions:

* `ControllerId`, `ControllerId.ofRandom` — identifiers, and how a new one is made;
* `Registry` — the identifiers listed as live, in ascending order;
* `World` — every controller by identifier, and every registry by number;
* `World.detached`, `World.create`, `World.close`, `World.withController` — the life of a
  controller;
* `World.lookup`, `World.live`, `World.count` — what a registry lists.
-/

import RevisionStore.Controller
import Std.Data.ExtTreeSet

set_option autoImplicit false

namespace RevisionStore

/-! ### Identifiers -/

/-- The identifier of a controller: a text that no other controller has. -/
structure ControllerId where
  text : String
deriving DecidableEq

namespace ControllerId

/-- Identifiers are ordered as their texts are. -/
instance : Ord ControllerId := ⟨compareOn text⟩

instance : Std.TransOrd ControllerId := inferInstanceAs (Std.TransCmp (compareOn text))

instance : Std.LawfulEqOrd ControllerId where
  eq_of_compare {a b} h := by
    cases a
    cases b
    exact congrArg ControllerId.mk (Std.LawfulEqOrd.eq_of_compare h)

/-- What every identifier that is made here begins with. -/
def marker : String := "mockscm-"

/-- The identifier made of sixteen random bytes.  Six bits are fixed, as in every random
universally unique identifier. -/
def ofRandom (random : Bytes) : ControllerId :=
  let fixed := random.mapIdx fun i b =>
    if i = 6 then (b &&& 0x0f) ||| 0x40 else if i = 8 then (b &&& 0x3f) ||| 0x80 else b
  ⟨marker ++ Hex.encode fixed⟩

end ControllerId

/-! ### Registries -/

/-- The identifiers of the controllers that are listed as live. -/
abbrev Registry := Std.ExtTreeSet ControllerId

/-- Every controller that was ever made, and the registries, which begin empty. -/
structure World where
  controllers : Std.ExtTreeMap ControllerId Controller
  registries : Std.ExtTreeMap Nat Registry

namespace World

/-- A world without controllers. -/
def empty : World := ⟨∅, ∅⟩

/-- The registry of a number. -/
def registry (w : World) (number : Nat) : Registry := w.registries.getD number ∅

/-- Puts a controller in the place of the one with its identifier. -/
def put (w : World) (id : ControllerId) (c : Controller) : World :=
  { w with controllers := w.controllers.insert id c }

/-- Replaces a registry. -/
def setRegistry (w : World) (number : Nat) (listed : Registry) : World :=
  { w with registries := w.registries.insert number listed }

/-! ### The life of a controller -/

/-- A new controller in no registry. -/
def detached (w : World) (id : ControllerId) (clock : Clock) : World :=
  w.put id (.withClock clock)

/-- A new controller, listed in a registry. -/
def create (w : World) (number : Nat) (id : ControllerId) (clock : Clock) : World :=
  (w.detached id clock).setRegistry number ((w.registry number).insert id)

/-- Takes a controller off a registry and drops its repositories, if it is listed there; says
whether it was. -/
def close (w : World) (number : Nat) (id : ControllerId) : Bool × World :=
  let listed := w.registry number
  if listed.contains id then
    let w := w.setRegistry number (listed.erase id)
    -- Whoever still holds the identifier sees the repositories go.
    (true, match w.controllers[id]? with
      | some c => w.put id c.release
      | none => w)
  else (false, w)

/-- Runs `body` with a new controller listed in a registry, which is closed at the end unless that
has happened before. -/
def withController {α : Type} (w : World) (number : Nat) (id : ControllerId) (clock : Clock)
    (body : World → α × World) : α × World :=
  let (result, w) := body (w.create number id clock)
  (result, (w.close number id).2)

/-- Runs an operation of one controller. -/
def onController {α : Type} (w : World) (id : ControllerId)
    (operation : Controller → α × Controller) : Option (α × World) :=
  w.controllers[id]?.map fun c =>
    let (result, c) := operation c
    (result, w.put id c)

/-! ### What is listed -/

/-- The controller of an identifier, if a registry lists it. -/
def lookup (w : World) (number : Nat) (id : ControllerId) : Option Controller :=
  if (w.registry number).contains id then w.controllers[id]? else none

/-- The identifiers that a registry lists, in ascending order. -/
def live (w : World) (number : Nat) : List ControllerId := (w.registry number).toList

/-- How many controllers a registry lists. -/
def count (w : World) (number : Nat) : Nat := (w.registry number).size

end World

end RevisionStore
