import Storyworld.Snapshot

/-!
# History

A session remembers the moments it went through.  Moments are kept in numbered
slots and linked into one line: each has at most one past and one future.  The
root, in slot zero, has no past and no cause; every other moment was made by a
transition from its past.

A new moment takes the place of its past's future.  If there was one, it and all
that came after it are given up: their slots are emptied (`discard`).  A slot is
never filled again, so a handle that was given up can not come to mean another
moment.

`discard` and `causesSince?` follow links.  Both are told how many links to
follow at most.  A slot is emptied or passed at each, so as many as there are
slots, and one more to see that the last is empty, are always enough.
-/

namespace Storyworld

/-- What every factor held at one time, and how that came about. -/
structure Moment where
  /-- What the factors held. -/
  values : Snapshot
  /-- The transition that made the moment; the root has none. -/
  cause : Option TransitionId
  /-- The moment it was made from; the root has none. -/
  past : Option MomentId
  /-- The moment last made from this one. -/
  future : Option MomentId
deriving DecidableEq, Repr

/-- The moments of a session. -/
structure History where
  /-- A slot for each moment ever made, empty if the moment was given up. -/
  slots : Array (Option Moment)
  /-- The number of moments that were not given up. -/
  live : Nat
deriving DecidableEq, Repr

namespace History

/-- The history that has only a root. -/
def start (values : Snapshot) : History := ⟨#[some ⟨values, none, none, none⟩], 1⟩

/-- The handle of the root. -/
def root : MomentId := ⟨0⟩

/-- The moment with a handle, unless it was given up or never made. -/
def get? (h : History) (id : MomentId) : Option Moment := h.slots[id.index]?.join

/-- Whether there is a moment with a handle. -/
def contains (h : History) (id : MomentId) : Bool := (h.get? id).isSome

/-- The number of moments. -/
def size (h : History) : Nat := h.live

/-- Whether there is no moment at all. -/
def isEmpty (h : History) : Bool := h.size == 0

/-! ## Making a moment -/

/-- Empty the slot of a moment and of all after it, following at most so many links.
Gives the slots and how many links were followed. -/
def discard : Nat → Array (Option Moment) → Option MomentId → Array (Option Moment) × Nat
  | 0, slots, _ => (slots, 0)
  | _ + 1, slots, none => (slots, 0)
  | n + 1, slots, some id =>
      let next := slots[id.index]?.join.bind Moment.future
      let (slots, count) := discard n (slots.setIfInBounds id.index none) next
      (slots, count + 1)

/-- Make a moment from another, which thereby loses the future it had. -/
def pushAfter (h : History) (origin : MomentId) (values : Snapshot) (cause : TransitionId) :
    MomentId × History :=
  let id : MomentId := ⟨h.slots.size⟩
  let (linked, old) := match h.get? origin with
    | some m => (h.slots.setIfInBounds origin.index (some { m with future := some id }), m.future)
    | none => (h.slots, none)
  let (kept, count) := discard (h.slots.size + 1) linked old
  (id, ⟨kept.push (some ⟨values, some cause, some origin, none⟩), h.live - count + 1⟩)

/-! ## Looking back -/

/-- The causes of the moments after one moment up to another, oldest first, put in
front of others; none if following so many links back does not meet the moment. -/
def causesBack? (h : History) (since : MomentId) :
    Nat → MomentId → List TransitionId → Option (List TransitionId)
  | steps, id, causes =>
      if id = since then some causes
      else match steps, h.get? id with
        | steps + 1, some ⟨_, some cause, some past, _⟩ =>
            h.causesBack? since steps past (cause :: causes)
        | _, _ => none

/-- The causes of the moments after `since` up to `id`, oldest first, if the one comes
before the other or is the same. -/
def causesSince? (h : History) (since id : MomentId) : Option (List TransitionId) :=
  h.causesBack? since h.slots.size id []

/-! ## Tests -/

/-- Two moments after the root, and then one that takes their place. -/
def forked : MomentId × History :=
  let h := (start ⟨[]⟩).pushAfter root ⟨[]⟩ ⟨0⟩
  let h := h.2.pushAfter h.1 ⟨[]⟩ ⟨1⟩
  h.2.pushAfter root ⟨[]⟩ ⟨2⟩

example : (forked.1, forked.2.size) = (⟨3⟩, 2) := by decide
example : (List.range 5).map (fun i => forked.2.contains ⟨i⟩)
    = [true, false, false, true, false] := by decide
example : forked.2.causesSince? root ⟨3⟩ = some [⟨2⟩] := by decide
/-- A moment that was given up is before no other. -/
example : forked.2.causesSince? ⟨1⟩ ⟨3⟩ = none := by decide

end History

end Storyworld
