import FileOrganizer.Time.Date

/-!
Moments in universal time, to the nanosecond, and their written form.
-/

namespace FileOrganizer

/-- `nanos` counts from the second `secs` and stays below 10⁹, but in the second before a leap second,
where it goes on to 2 · 10⁹. -/
structure Instant where
  secs : Int
  nanos : Nat
  deriving DecidableEq, Repr, Inhabited

namespace Instant

def date (t : Instant) : Date := Date.ofDays (t.secs / 86400)

/-- The second of the day. -/
def clock (t : Instant) : Nat := (t.secs % 86400).toNat

def ofParts (d : Date) (hour minute second : Nat) (nanos : Nat) : Instant :=
  ⟨d.toDays * 86400 + hour * 3600 + minute * 60 + second, nanos⟩

def before (s t : Instant) : Bool := s.secs < t.secs || (s.secs = t.secs && s.nanos < t.nanos)

/-- Whole days from `t` to `now`, rounded toward zero; negative if `t` is later. -/
def daysUntil (t now : Instant) : Int :=
  let ns : Int := (now.secs - t.secs) * 1000000000 + (now.nanos - t.nanos)
  Int.tdiv ns 86400000000000

/-- No digits, or as many groups of three as the fraction needs. -/
def fraction (nanos : Nat) : String :=
  if nanos = 0 then ""
  else if nanos % 1000000 = 0 then "." ++ padded 3 (nanos / 1000000)
  else if nanos % 1000 = 0 then "." ++ padded 6 (nanos / 1000)
  else "." ++ padded 9 nanos

/-- The written form, ended by `zone`. A leap second is second 60. -/
def text (t : Instant) (zone : String) : String :=
  let c := t.clock
  t.date.text ++ "T" ++ padded 2 (c / 3600) ++ ":" ++ padded 2 (c / 60 % 60) ++ ":" ++
    padded 2 (c % 60 + t.nanos / 1000000000) ++ fraction (t.nanos % 1000000000) ++ zone

end Instant

end FileOrganizer
