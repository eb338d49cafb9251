import SolidScript.Text.Quoted

namespace SolidScript

/-- Why a path cannot be used, with the number of the cause. -/
structure PathFault where
  code : Nat
  reason : String
  /-- Whether the message names the path. -/
  named : Bool := true
deriving DecidableEq, Repr

namespace PathFault

def noEntry : PathFault := { code := 2, reason := "No such file or directory" }

def permissionDenied : PathFault := { code := 13, reason := "Permission denied" }

def notADirectory : PathFault := { code := 20, reason := "Not a directory" }

def isADirectory : PathFault := { code := 21, reason := "Is a directory" }

def invalid : PathFault := { code := 22, reason := "Invalid argument" }

def noSpace : PathFault := { code := 28, reason := "No space left on device", named := false }

def nameTooLong : PathFault := { code := 36, reason := "File name too long" }

def message (fault : PathFault) (path : String) : String :=
  "[Errno " ++ toString fault.code ++ "] " ++ fault.reason ++
    if fault.named then ": " ++ Text.quoted path else ""

end PathFault

end SolidScript
