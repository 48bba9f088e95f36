import Gridfill.Calendar.Basic
import Gridfill.Number.Double

/-!
# Serial day numbers

Sheets store a date as the number of days since the thirtieth of December 1899 and the time of day as
a fraction of a day. Distances from universal time play no part: the serial is that of the local
reading.
-/

namespace Gridfill.Calendar

open Number (Double)

/-- The day with serial number zero. -/
def serialZero : Date := ⟨1899, 12, 30⟩

/-- The days from day zero to a date. -/
def Date.serial (d : Date) : Int := d.ordinal - serialZero.ordinal

/-- The serial number of a moment: the sum of the days, the seconds as a fraction of a day and the
microseconds as a fraction of a day, rounded after each division and each addition. -/
def Moment.serial (m : Moment) : Double :=
  ((Double.ofInt m.date.serial).add (Double.ofQuotient m.reading.clock.seconds 86400)).add
    (Double.ofQuotient m.reading.clock.microsecond 86400000000)

example : serialZero.serial = 0 := by decide
example : (⟨1900, 3, 1⟩ : Date).serial = 61 := by decide

end Gridfill.Calendar
