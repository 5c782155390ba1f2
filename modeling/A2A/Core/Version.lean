/-
# Protocol versions (`version.cpp`).
-/
import A2A.Foundation.Json

namespace A2A.Core

open A2A.Foundation

namespace Version

def kProtocolVersion : Text := "1.0".toList
def kEmptyVersionFallback : Text := "0.3".toList

/-- `IsNumericComponent`. -/
def isNumericComponent (component : Text) : Bool :=
  !component.isEmpty && (component.length == 1 || component.head? != some '0') &&
    component.all fun c => decide ('0' ≤ c) && decide (c ≤ '9')

/-- `Version::MajorMinor`. -/
def majorMinor (version : Text) : Option Text :=
  if version.isEmpty then some kEmptyVersionFallback
  else
    let major := version.takeWhile (· ≠ '.')
    match version.dropWhile (· ≠ '.') with
    | [] => none
    | _ :: rest =>
      let minor := rest.takeWhile (· ≠ '.')
      if !isNumericComponent major || !isNumericComponent minor then none
      else
        match rest.dropWhile (· ≠ '.') with
        | [] => some (major ++ '.' :: minor)
        | _ :: patch => if isNumericComponent patch then some (major ++ '.' :: minor) else none

/-- `Version::IsSupported`. -/
def isSupported (version : Text) : Bool := majorMinor version == some kProtocolVersion

end Version

end A2A.Core
