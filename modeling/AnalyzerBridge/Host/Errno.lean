/-
Why the system refuses a call.
-/
import AnalyzerBridge.Bytes

namespace AnalyzerBridge.Host

/-- The reasons for which a system call can fail here. -/
inductive Errno where
  | noEntry
  | notDirectory
  | isDirectory
  | permissionDenied
  | nameTooLong
  | fileExists
  | notEmpty
  | execFormat
  | brokenPipe
  | badDescriptor
  | argumentTooLong
  | tooManyFiles
  | tryAgain
  deriving DecidableEq, Repr

/-- The system's own words for a reason. -/
def Errno.message : Errno → Bytes
  | noEntry => ascii "No such file or directory"
  | notDirectory => ascii "Not a directory"
  | isDirectory => ascii "Is a directory"
  | permissionDenied => ascii "Permission denied"
  | nameTooLong => ascii "File name too long"
  | fileExists => ascii "File exists"
  | notEmpty => ascii "Directory not empty"
  | execFormat => ascii "Exec format error"
  | brokenPipe => ascii "Broken pipe"
  | badDescriptor => ascii "Bad file descriptor"
  | argumentTooLong => ascii "Argument list too long"
  | tooManyFiles => ascii "Too many open files"
  | tryAgain => ascii "Resource temporarily unavailable"

end AnalyzerBridge.Host
