/-!
What a rule does to a file that it matches.
-/

namespace FileOrganizer

inductive TransferKind | move | copy
  deriving DecidableEq, Repr, Inhabited

def TransferKind.text : TransferKind → String
  | move => "move"
  | copy => "copy"

inductive Action
  | rename (newName : String)
  | tokenRename (template : String)
  | move (destination : String)
  | copy (destination : String)
  | delete
  | deleteToTrash
  | runCommand (program : String) (args : List String) (timeout : Nat)
  | archive (destination : Option String)
  | extract (destination : Option String)
  | createFolder (path : String)
  | addTag (tag : String)
  | removeTag (tag : String)
  | colorLabel (color : String)
  | markAsDuplicate (tag : Option String)
  deriving DecidableEq, Repr

namespace Action

def kind : Action → String
  | rename _ => "Rename"
  | tokenRename _ => "TokenRename"
  | move _ => "Move"
  | copy _ => "Copy"
  | delete => "Delete"
  | deleteToTrash => "DeleteToTrash"
  | runCommand .. => "RunCommand"
  | archive _ => "Archive"
  | extract _ => "Extract"
  | createFolder _ => "CreateFolder"
  | addTag _ => "AddTag"
  | removeTag _ => "RemoveTag"
  | colorLabel _ => "ColorLabel"
  | markAsDuplicate _ => "MarkAsDuplicate"

def isDeletion : Action → Bool
  | delete | deleteToTrash => true
  | _ => false

end Action

end FileOrganizer
