import FileOrganizer.Rules.Action
import FileOrganizer.Rules.Condition

/-!
Rules, and the profiles that hold them together with what a user says about categories.
-/

namespace FileOrganizer

/-- Whether a rule asks for all of its conditions or for one. -/
inductive MatchMode | all | any
  deriving DecidableEq, Repr

structure Rule where
  name : String
  mode : MatchMode := .all
  stopOnMatch : Bool := false
  conditions : List Condition := []
  actions : List Action := []
  deriving DecidableEq

namespace Rule

def matches? (r : Rule) (s : Sight) (f : FileInfo) : Bool :=
  match r.mode with
  | .all => r.conditions.all (·.holds s f)
  | .any => r.conditions.any (·.holds s f)

def deletes (r : Rule) : Bool := r.actions.any Action.isDeletion

end Rule

structure Profile where
  name : String := ""
  rules : List Rule := []
  categories : Categories := {}
  deriving DecidableEq

inductive ProfileFault
  | unnamedRule
  | emptyRule (name : String)
  | duplicateRule (name : String)
  /-- The document is no profile. -/
  | invalid (e : DecodeError)
  | unreadable (f : Fault)
  deriving DecidableEq, Repr

namespace ProfileFault

/-- Is the profile itself at fault, and not the reading of it? -/
def blamesProfile : ProfileFault → Bool
  | unreadable _ => false
  | _ => true

def message : ProfileFault → String
  | unnamedRule => "规则名不能为空"
  | emptyRule n => "规则 \"" ++ n ++ "\" 没有任何条件和动作"
  | duplicateRule n => "规则名重复: " ++ n
  | invalid e => "配置格式错误: " ++ e.message?.getD ""
  | unreadable f =>
    match f.kind with
    | .json => "JSON错误: " ++ f.message
    | .database => "数据库错误: " ++ f.message
    | _ => "IO错误: " ++ f.message

end ProfileFault

namespace Profile

/-- The first rule that has no name, no content, or the name of a rule before it. -/
def check : List String → List Rule → Except ProfileFault Unit
  | _, [] => .ok ()
  | seen, r :: rs =>
    if Text.trim r.name.toList = [] then .error .unnamedRule
    else if r.conditions.isEmpty && r.actions.isEmpty then .error (.emptyRule r.name)
    else if seen.contains r.name then .error (.duplicateRule r.name)
    else check (r.name :: seen) rs

def validate (p : Profile) : Except ProfileFault Unit := check [] p.rules

def rule? (p : Profile) (name : String) : Option Rule := p.rules.find? (·.name = name)

end Profile

end FileOrganizer
