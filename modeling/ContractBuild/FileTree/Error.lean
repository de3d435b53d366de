/-! Why an operation on files fails. -/
namespace ContractBuild

/-- The cause of a failed file operation. -/
inductive FileError where
  | notFound
  | permissionDenied
  | busy
  | exists
  | notDirectory
  | isDirectory
  | invalid
  | nameTooLong
  | notEmpty
  | tooManyLinks
  /-- A name holds the zero character, which no file name can. -/
  | zeroInName
  /-- An argument of a program holds the zero character. -/
  | zeroInArgument
  /-- A file that is to be run is no program. -/
  | notProgram
  /-- A file that has to be text is not valid UTF-8. -/
  | notText
  deriving DecidableEq, Inhabited

namespace FileError

/-- The cause as it is shown, with the number of the system error where there is one. -/
def message : FileError → String
  | notFound => "No such file or directory (os error 2)"
  | permissionDenied => "Permission denied (os error 13)"
  | busy => "Device or resource busy (os error 16)"
  | .exists => "File exists (os error 17)"
  | notDirectory => "Not a directory (os error 20)"
  | isDirectory => "Is a directory (os error 21)"
  | invalid => "Invalid argument (os error 22)"
  | nameTooLong => "File name too long (os error 36)"
  | notEmpty => "Directory not empty (os error 39)"
  | tooManyLinks => "Too many levels of symbolic links (os error 40)"
  | zeroInName => "file name contained an unexpected NUL byte"
  | zeroInArgument => "nul byte found in provided data"
  | notProgram => "Exec format error (os error 8)"
  | notText => "stream did not contain valid UTF-8"

end FileError

end ContractBuild
