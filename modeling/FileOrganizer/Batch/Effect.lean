import FileOrganizer.Rules.Profile

/-!
What became of an action, and the record of what was moved or made.
-/

namespace FileOrganizer

inductive Status
  | applied
  | wouldApply
  /-- The effect is there already. -/
  | skipped
  | blocked
  | failed
  deriving DecidableEq, Repr

namespace Status

def text : Status → String
  | applied => "Applied"
  | wouldApply => "WouldApply"
  | skipped => "SkippedIdempotent"
  | blocked => "BlockedBySafeMode"
  | failed => "Failed"

/-- Done, or what a trial run would do. -/
def counts : Status → Bool
  | applied | wouldApply => true
  | _ => false

end Status

/-- A file went from one path to another, or something was made from it. -/
structure UndoRecord where
  source : Path
  target : Path
  mode : TransferKind
  time : Instant
  deriving DecidableEq, Repr

/-- What became of an action on a file: where the file went, what was made beside it, and what the log
takes down. -/
structure Effect where
  status : Status
  message : String
  newPath : Option Path := none
  output : Option Path := none
  records : List UndoRecord := []
  deriving DecidableEq, Repr

namespace Effect

def applied (message : String) : Effect := ⟨.applied, message, none, none, []⟩

def planned (message : String) : Effect := ⟨.wouldApply, message, none, none, []⟩

def skipped (message : String) : Effect := ⟨.skipped, message, none, none, []⟩

def blocked (message : String) : Effect := ⟨.blocked, message, none, none, []⟩

def failed (message : String) : Effect := ⟨.failed, message, none, none, []⟩

def landing (r : Effect) (p : Path) : Effect := { r with newPath := some p }

def making (r : Effect) (p : Path) : Effect := { r with output := some p }

def noting (r : Effect) (ms : List UndoRecord) : Effect :=
  { r with records := r.records ++ ms }

end Effect

end FileOrganizer
