import FileOrganizer.Json.Decode
import FileOrganizer.Path

/-!
What can go wrong outside of the rules: the answers of the operating system, files that cannot be
understood, and the work that a fault stopped.
-/

namespace FileOrganizer

inductive OsError
  | notFound
  | denied
  | busy
  | occupied
  | notDirectory
  | isDirectory
  | invalid
  | nameTooLong
  | notEmpty
  | tooManyLinks
  | nulInPath
  deriving DecidableEq, Repr

def OsError.message : OsError → String
  | notFound => "No such file or directory (os error 2)"
  | denied => "Permission denied (os error 13)"
  | busy => "Device or resource busy (os error 16)"
  | occupied => "File exists (os error 17)"
  | notDirectory => "Not a directory (os error 20)"
  | isDirectory => "Is a directory (os error 21)"
  | invalid => "Invalid argument (os error 22)"
  | nameTooLong => "File name too long (os error 36)"
  | notEmpty => "Directory not empty (os error 39)"
  | tooManyLinks => "Too many levels of symbolic links (os error 40)"
  | nulInPath => "file name contained an unexpected NUL byte"

inductive Fault
  | os (e : OsError)
  | notText
  | notRegularFile
  | emptyPath
  /-- Something stands where a file was to be put. -/
  | occupied (target : Path)
  | sourceMissing (source : Path) (cause : OsError)
  /-- Renaming failed with the first fault, and copying instead with the second. -/
  | notMoved (first : OsError) (cause : Fault)
  | cannotStart (program : String) (cause : OsError)
  | timeout (seconds : Nat)
  | badJson (e : DecodeError)
  | badDatabase
  | badArchive
  | configUnreadable (file : Path) (cause : Fault)
  | storeUnreadable (file : Path) (cause : Fault)
  deriving DecidableEq, Repr

namespace Fault

/-- The fault in one line: what was being done, then why it failed. -/
def message : Fault → String
  | os e => e.message
  | notText => "stream did not contain valid UTF-8"
  | notRegularFile => "the source path is neither a regular file nor a symlink to a regular file"
  | emptyPath => "cannot make an empty path absolute"
  | occupied p => "目标文件已存在: " ++ p.text
  | sourceMissing p e => "源文件不存在: " ++ p.text ++ ": " ++ e.message
  | notMoved e f => "移动失败: " ++ e.message ++ ": " ++ f.message
  | cannotStart p e => "无法启动 " ++ p ++ ": " ++ e.message
  | timeout n => "命令超时（" ++ toString n ++ " 秒）"
  | badJson e => e.message?.getD "invalid JSON"
  | badDatabase => "file is not a database"
  | badArchive => "invalid Zip archive"
  | configUnreadable p f => "无法读取配置文件 " ++ p.text ++ ": " ++ f.message
  | storeUnreadable p f => "无法打开标签数据库 " ++ p.text ++ ": " ++ f.message

/-- What was being done, without the reason. -/
def headline : Fault → String
  | sourceMissing p _ => "源文件不存在: " ++ p.text
  | notMoved e _ => "移动失败: " ++ e.message
  | cannotStart p _ => "无法启动 " ++ p
  | configUnreadable p _ => "无法读取配置文件 " ++ p.text
  | storeUnreadable p _ => "无法打开标签数据库 " ++ p.text
  | f => f.message

inductive Kind | io | json | database | other
  deriving DecidableEq, Repr

def kind : Fault → Kind
  | os _ | notText | notRegularFile | emptyPath | sourceMissing .. | notMoved .. | cannotStart .. => .io
  | badJson _ => .json
  | badDatabase => .database
  | occupied _ | timeout _ | badArchive => .other
  | configUnreadable _ f | storeUnreadable _ f => f.kind

end Fault

end FileOrganizer
