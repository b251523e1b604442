/-! # What the system says -/

namespace ScgiStub

inductive SystemFault where
  | notFound
  | connectionRefused
  | alreadyExists
  | addressInUse
  | notADirectory
  | invalidArgument
  | nameTooLong
  | nulInPath
  | socketPathTooLong
  | timedOut
  deriving DecidableEq, Repr

def SystemFault.message : SystemFault → String
  | .notFound => "No such file or directory (os error 2)"
  | .connectionRefused => "Connection refused (os error 111)"
  | .alreadyExists => "File exists (os error 17)"
  | .addressInUse => "Address already in use (os error 98)"
  | .notADirectory => "Not a directory (os error 20)"
  | .invalidArgument => "Invalid argument (os error 22)"
  | .nameTooLong => "File name too long (os error 36)"
  | .nulInPath => "file name contained an unexpected NUL byte"
  | .socketPathTooLong => "path must be shorter than SUN_LEN"
  | .timedOut => "future timed out"

end ScgiStub
