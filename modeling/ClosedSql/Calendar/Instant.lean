import ClosedSql.Calendar.Date

/-!
# Instants

A point of time is a number of seconds since the first of January 1970 and a number of
nanoseconds after that second. A leap second belongs to the second before it, whose
nanoseconds then reach beyond a thousand million.
-/

namespace ClosedSql.Calendar

structure Instant where
  seconds : Int
  nanos : Nat
deriving DecidableEq

namespace Instant

def daySeconds : Int :=
  86400

def day (instant : Instant) : Int :=
  instant.seconds / daySeconds

def date (instant : Instant) : Date :=
  .ofDay instant.day

def clockText (instant : Instant) : List Char :=
  let time := (instant.seconds % daySeconds).toNat
  padded 2 (time / 3600) ++ ':' :: padded 2 (time / 60 % 60) ++ ':' :: padded 2 (time % 60)

/-- A point and three, six or nine digits, as many as are needed; nothing for a whole second. -/
def fractionText (instant : Instant) : List Char :=
  let nanos := instant.nanos % 1000000000
  if nanos = 0 then []
  else if nanos % 1000000 = 0 then '.' :: padded 3 (nanos / 1000000)
  else if nanos % 1000 = 0 then '.' :: padded 6 (nanos / 1000)
  else '.' :: padded 9 nanos

/-- Date and time with a letter between them. -/
def text (instant : Instant) : List Char :=
  instant.date.text ++ 'T' :: instant.clockText ++ instant.fractionText

/-- Date and time to the second with a space between them. -/
def plainText (instant : Instant) : List Char :=
  instant.date.text ++ ' ' :: instant.clockText

def millennium : Int :=
  946684800

/-- Whole microseconds since 1970. What is left is cut off in the direction of the year
2000. -/
def toMicros (instant : Instant) : Int :=
  ((instant.seconds - millennium) * 1000000000 + instant.nanos).tdiv 1000 + millennium * 1000000

/-- The instant a number of microseconds after the beginning of 1970. -/
def ofMicros (micros : Int) : Instant :=
  ⟨micros / 1000000, (micros % 1000000).toNat * 1000⟩

def inRange (instant : Instant) : Bool :=
  instant.date.inRange

end Instant

end ClosedSql.Calendar
