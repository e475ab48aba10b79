import Mathlib.Data.Int.Order.Basic

/-!
This module contains how a store keeps a time in a column of whole seconds.
-/

/--
Milliseconds are rounded to the nearest second, and up if there are two.
-/
def toDatetime (time : Int) : Int :=
  (time + 500) / 1000 * 1000

theorem toDatetime_monotone {a b : Int} (h : a ≤ b) : toDatetime a ≤ toDatetime b := by
  unfold toDatetime
  omega
