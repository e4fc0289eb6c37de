import Epistle.Text.Format

/-!
# Dates

The date of a header, in UTC, from the seconds since the epoch.
-/

namespace TextFormat

/-- The year, the month and the day of a number of days since the epoch. -/
def civilFromDays (days : ℤ) : ℤ × ℕ × ℕ :=
  let z := days + 719468
  let era := z / 146097
  let doe := z % 146097
  let yoe := (doe - doe / 1460 + doe / 36524 - doe / 146096) / 365
  let doy := doe - (365 * yoe + yoe / 4 - yoe / 100)
  let mp := (5 * doy + 2) / 153
  let day := doy - (153 * mp + 2) / 5 + 1
  let month := if mp < 10 then mp + 3 else mp - 9
  (yoe + era * 400 + (if month ≤ 2 then 1 else 0), month.toNat, day.toNat)

def twoDigits (n : ℕ) : Text := if n < 10 then '0' :: decimal n else decimal n

def dayNames : List String := ["Sun", "Mon", "Tue", "Wed", "Thu", "Fri", "Sat"]

def monthNames : List String :=
  ["Jan", "Feb", "Mar", "Apr", "May", "Jun", "Jul", "Aug", "Sep", "Oct", "Nov", "Dec"]

def rfc5322 (secs : ℕ) : Text :=
  let date := civilFromDays (secs / 86400 : ℕ)
  let second := secs % 86400
  (dayNames.getD ((secs / 86400 + 4) % 7) "").toList ++ ", ".toList ++ twoDigits date.2.2 ++
    ' ' :: (monthNames.getD (date.2.1 - 1) "").toList ++ ' ' :: decimal date.1.toNat ++
    ' ' :: twoDigits (second / 3600) ++ ':' :: twoDigits (second % 3600 / 60) ++
    ':' :: twoDigits (second % 60) ++ " +0000".toList

example : rfc5322 1780662896 = "Fri, 05 Jun 2026 12:34:56 +0000".toList := by decide

end TextFormat
