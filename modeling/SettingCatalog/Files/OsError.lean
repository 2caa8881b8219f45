/-!
What the operating system says when it refuses an operation.
-/

namespace SettingCatalog

inductive OsError where
  | notFound
  | alreadyExists
  | noDevice
  | notADirectory
  | isADirectory
  | noSpace
  | nameTooLong
  | nulInName
  | timedOut
  | tooManyLinks
  | networkUnreachable
  | connectionRefused
  | invalidUtf8
  | zeroTimeout
  | invalidAddress
  | invalidPort
  | unknownHost
deriving DecidableEq, Repr

namespace OsError

def message : OsError → String
  | notFound => "No such file or directory (os error 2)"
  | timedOut => "Resource temporarily unavailable (os error 11)"
  | alreadyExists => "File exists (os error 17)"
  | noDevice => "No such device (os error 19)"
  | notADirectory => "Not a directory (os error 20)"
  | isADirectory => "Is a directory (os error 21)"
  | noSpace => "No space left on device (os error 28)"
  | nameTooLong => "File name too long (os error 36)"
  | tooManyLinks => "Too many levels of symbolic links (os error 40)"
  | networkUnreachable => "Network is unreachable (os error 101)"
  | connectionRefused => "Connection refused (os error 111)"
  | nulInName => "file name contained an unexpected NUL byte"
  | invalidUtf8 => "stream did not contain valid UTF-8"
  | zeroTimeout => "cannot set a 0 duration timeout"
  | invalidAddress => "invalid socket address"
  | invalidPort => "invalid port value"
  | unknownHost => "failed to lookup address information: Temporary failure in name resolution"

end OsError

end SettingCatalog
