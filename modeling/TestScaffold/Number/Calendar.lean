/-
  TestScaffold/Number/Calendar.lean
  =================================
  The lengths of months.
-/

namespace TestScaffold.Calendar

/-- Whether a year has a day more in its second month. -/
def isLeap (year : Nat) : Bool := year % 4 == 0 && (year % 100 != 0 || year % 400 == 0)

/-- The number of days in a month. -/
def daysIn (year month : Nat) : Nat :=
  if month = 2 then if isLeap year then 29 else 28
  else if month ∈ [4, 6, 9, 11] then 30
  else 31

end TestScaffold.Calendar
