import FileOrganizer.Tags.Twins

/-!
What a trial run would have changed so far, and the view of the tag store with these changes laid over
it.
-/

namespace FileOrganizer

/-- Changes that were not made: where a file would be by now, what would be on record about it. -/
structure Pending where
  origins : Table Path Path := []
  added : Table Path (List String) := []
  removed : Table Path (List String) := []
  colors : Table Path String := []
  fields : Table Path (Table String String) := []
  indexed : List Path := []
  deriving Inhabited

namespace Pending

variable (p : Pending) (key : Path)

def empty : Pending := {}

/-- The path on disk of a file that would be at `key`. -/
def origin : Path := (p.origins.get? key).getD key

/-- A file would go from `key` to `target`, and with it all that would be on record. -/
def relocate (target : Path) : Pending where
  origins := (p.origins.erase key).put target (p.origin key)
  added := p.added.carry key target
  removed := p.removed.carry key target
  colors := p.colors.carry key target
  fields := p.fields.carry key target
  indexed := if p.indexed.contains key then insertBy Path.before target (p.indexed.erase key) else p.indexed

def addedTo : List String := (p.added.get? key).getD []

def removedFrom : List String := (p.removed.get? key).getD []

def addTag (tag : String) : Pending :=
  { p with
    added := p.added.put key (insertText tag (p.addedTo key))
    removed := p.removed.adjust key (·.filter (· ≠ tag)) }

def removeTag (tag : String) : Pending :=
  { p with
    added := p.added.adjust key (·.filter (· ≠ tag))
    removed := p.removed.put key (insertText tag (p.removedFrom key)) }

def setColor (color : String) : Pending := { p with colors := p.colors.put key color }

def setField (name value : String) : Pending :=
  { p with fields := p.fields.put key (((p.fields.get? key).getD []).put name value) }

def noteIndexed : Pending := { p with indexed := insertBy Path.before key p.indexed }

end Pending

/-- The tag store, with changes laid over it in a trial run. -/
structure View where
  store : TagStore
  pending : Option Pending

namespace View

variable (host : Host) (v : View) (p : Path)

/-- Where the content of a file is: a file that was moved only in a trial run is still in its old place. -/
def origin : Path :=
  match v.pending with
  | none => p
  | some q => (q.origins.get? (host.key p)).getD p

def storeKey : Path := host.key (v.origin host p)

def tags : List String :=
  match v.pending with
  | none => v.store.tagsOf (v.storeKey host p)
  | some q =>
    (q.addedTo (host.key p)).foldr insertText
      ((v.store.tagsOf (v.storeKey host p)).filter fun t => !(q.removedFrom (host.key p)).contains t)

def color : Option String :=
  (v.pending.bind fun q => q.colors.get? (host.key p)) <|> v.store.color (v.storeKey host p)

def field (name : String) : Option String :=
  (v.pending.bind fun q => (q.fields.get? (host.key p)).bind (·.get? name)) <|>
    v.store.field (v.storeKey host p) name

def isFiled (t : Tree) : Except Fault Bool :=
  if (v.pending.map fun q => q.indexed.contains (host.key p)).getD false then .ok true
  else v.store.isFiled host t (v.origin host p)

/-- The first of the files that would be on record by now whose content is that of `own`. -/
def pendingTwin? (t : Tree) (own : Path) (q : Pending) : List Path → Except OsError (Option Path)
  | [] => .ok none
  | c :: cs =>
    let source := q.origin c
    if source.same own || !t.has host.cwd source then pendingTwin? t own q cs
    else match Content.same host t own source with
      | .error e => .error e
      | .ok true => .ok (some c)
      | .ok false => pendingTwin? t own q cs

/-- A file on record with the same content. -/
def twin? (t : Tree) : Except Fault (Option Path) :=
  let own := v.origin host p
  match v.store.twin? host t own with
  | .error e => .error e
  | .ok (some found) => .ok (some found)
  | .ok none =>
    match v.pending with
    | none => .ok none
    | some q =>
      (pendingTwin? host t own q (q.indexed.filter (· ≠ host.key p))).mapError Fault.os

end View

end FileOrganizer
