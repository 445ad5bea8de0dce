/-! Why a file cannot be used. -/
namespace HedgedStore

inductive FileFault where
  | missing
  | directory
  /-- Something on the way to the file is no directory. -/
  | notDirectory
  /-- The path, or a name in it, has too many bytes. -/
  | nameTooLong
  | notText
  | other (message : String)
deriving DecidableEq, Repr

def FileFault.message : FileFault → String
  | .missing => "No such file or directory (os error 2)"
  | .directory => "Is a directory (os error 21)"
  | .notDirectory => "Not a directory (os error 20)"
  | .nameTooLong => "File name too long (os error 36)"
  | .notText => "stream did not contain valid UTF-8"
  | .other message => message

end HedgedStore
