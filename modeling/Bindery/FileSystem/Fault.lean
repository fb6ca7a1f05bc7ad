/-!
# Why a file operation fails

The causes with which the operating system refuses an operation on files, and the two with which
a name or a text is refused before or after it.
-/

namespace Bindery

inductive Fault where
  | notFound
  | busy
  | exists
  | noDevice
  | notDirectory
  | isDirectory
  | nameTooLong
  | nulInName
  | notText
  deriving DecidableEq

/-- The text of a refusal, with the operating system's number where it has one. -/
def Fault.message : Fault → String
  | .notFound => "No such file or directory (os error 2)"
  | .busy => "Device or resource busy (os error 16)"
  | .exists => "File exists (os error 17)"
  | .noDevice => "No such device (os error 19)"
  | .notDirectory => "Not a directory (os error 20)"
  | .isDirectory => "Is a directory (os error 21)"
  | .nameTooLong => "File name too long (os error 36)"
  | .nulInName => "file name contained an unexpected NUL byte"
  | .notText => "stream did not contain valid UTF-8"

end Bindery
