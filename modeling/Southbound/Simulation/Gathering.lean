/-!
# Gathering

A program that waits for several results takes them as they come in, and a
`Gathering` says how many it has.  Taking a result is a unit of work, so one
turn may not be enough for all that have come in.  Those that are left are put
off until the task has rested.

The results of the members come first, and then a last one, if there is one.
-/

namespace Southbound

/-- How far a program has come with the results that it waits for. -/
structure Gathering where
  /-- How many results of members it has taken. -/
  taken : Nat := 0
  /-- How many results of members it has put off. -/
  deferred : Nat := 0
  /-- Whether it has taken the last result. -/
  closed : Bool := false
  /-- Whether it has put off the last result. -/
  closeDeferred : Bool := false
deriving DecidableEq, Repr, Inhabited

namespace Gathering

/-- How many results have come in that it has neither taken nor put off, if so
many are known. -/
def arrived (g : Gathering) (known : Nat) : Nat := known - (g.taken + g.deferred)

/-- Take results of members, as many as the allowance is for, and put off the
others.  The number is what is left of the allowance. -/
def take (g : Gathering) (known allowance : Nat) : Gathering × Nat :=
  let count := min (g.arrived known) allowance
  ({ g with
    taken := g.taken + count
    deferred := g.deferred + (g.arrived known - count) }, allowance - count)

/-- Take the last result, if it is known.  Without an allowance not even that
can be seen, and it is put off. -/
def close (g : Gathering) (known : Bool) (allowance : Nat) : Gathering × Nat :=
  if g.closed then (g, allowance)
  else if allowance = 0 then ({ g with closeDeferred := true }, 0)
  else if known then ({ g with closed := true, closeDeferred := false }, allowance - 1)
  else ({ g with closeDeferred := false }, allowance)

/-- Whether it has all results of so many members, and the last one if there is
one. -/
def isOver (g : Gathering) (members : Nat) (hasLast : Bool) : Bool :=
  g.taken = members && (!hasLast || g.closed)

/-- The gathering after the task has rested. -/
def rested (g : Gathering) : Gathering := { g with deferred := 0, closeDeferred := false }

end Gathering

end Southbound
