import WheelForge.Pep440.Packaging

/-!
# Wheel tags of a target

The target profile of a build, as the worker validates it, and the tags of the wheels that install on
it.
-/

set_option autoImplicit false

namespace WheelForge.Target

open WheelForge.Pep440 (Packaging Version)

structure TargetProfile where
  profileId : String
  profileCode : String
  os : String
  architecture : String
  pythonImplementation : String
  pythonVersion : String
  pythonFullVersion : String
  platformTag : String
  abiTags : List String
  validationType : String
  validationPolicyVersion : String
  profileVersion : Nat
deriving DecidableEq, Repr

/-- CPython 3.12 on Linux, with the values that the validators of the profile take. -/
def linuxTarget : TargetProfile where
  profileId := "00000000-0000-0000-0000-000000000002"
  profileCode := "LINUX_X86_64_CP312"
  os := "LINUX"
  architecture := "X86_64"
  pythonImplementation := "CPYTHON"
  pythonVersion := "3.12"
  pythonFullVersion := "3.12.0"
  platformTag := "manylinux2014_x86_64"
  abiTags := ["cp312", "abi3", "none"]
  validationType := "STATIC"
  validationPolicyVersion := "wheel-tags-v1"
  profileVersion := 1

/-- A `packaging.tags.Tag`. -/
structure Tag where
  interpreter : String
  abi : String
  platform : String
deriving DecidableEq, Repr

/-- The library with the functions on wheel file names. -/
structure WheelPackaging extends Packaging where
  /-- `parse_wheel_filename(filename)` but for the build tag; `none` is `InvalidWheelFilename`. -/
  parseWheelFilename : String → Option (String × Version × List Tag)
  /-- `repr(text)`. -/
  repr : String → String

/-- `python_version.split(".")[1]`. -/
def TargetProfile.minor (profile : TargetProfile) : String :=
  String.ofList ((profile.pythonVersion.toList.splitOn '.').getD 1 [])

def TargetProfile.cpythonTag (profile : TargetProfile) : String :=
  "cp" ++ String.ofList (profile.pythonVersion.toList.filter (· ≠ '.'))

def TargetProfile.pythonTag (profile : TargetProfile) : String :=
  "py" ++ String.ofList (profile.pythonVersion.toList.filter (· ≠ '.'))

/-- `_LINUX_ARCHITECTURES`. -/
def linuxArchitecture (architecture : String) : String :=
  if architecture = "AARCH64" then "aarch64" else "x86_64"

/-- `compatible_platform_tags`. -/
def compatiblePlatformTags (profile : TargetProfile) : List String :=
  if profile.os ≠ "LINUX" then [profile.platformTag]
  else
    let architecture := linuxArchitecture profile.architecture
    let tags := [profile.platformTag, "manylinux_2_17_" ++ architecture] ++
      (List.range 17).reverse.map fun minor => s!"manylinux_2_{minor}_{architecture}"
    let legacy := if architecture = "x86_64" then ["manylinux2010_x86_64", "manylinux1_x86_64"]
      else []
    (tags ++ legacy).eraseDups

/-- `int(text)` of decimal digits. -/
def decimalValue (text : String) : Nat :=
  text.toList.foldl (fun value digit => 10 * value + (digit.toNat - '0'.toNat)) 0

/-- `compatible_abi3_interpreters`. -/
def compatibleAbi3Interpreters (profile : TargetProfile) : List String :=
  (List.range (decimalValue profile.minor + 1)).filterMap fun minor =>
    if 2 ≤ minor then some s!"cp3{minor}" else none

/-- `compatible_tags`. -/
def compatibleTags (profile : TargetProfile) : List Tag :=
  (compatiblePlatformTags profile).flatMap (fun platform =>
    [⟨profile.cpythonTag, profile.cpythonTag, platform⟩, ⟨profile.cpythonTag, "abi3", platform⟩,
      ⟨profile.cpythonTag, "none", platform⟩, ⟨profile.pythonTag, "none", platform⟩,
      ⟨"py3", "none", platform⟩] ++
    (compatibleAbi3Interpreters profile).map fun interpreter => ⟨interpreter, "abi3", platform⟩) ++
  [⟨profile.pythonTag, "none", "any"⟩, ⟨"py3", "none", "any"⟩]

/-- `wheel_is_compatible`. -/
def wheelIsCompatible (pk : WheelPackaging) (filename : String) (profile : TargetProfile) : Bool :=
  match pk.parseWheelFilename filename with
  | none => false
  | some (_, _, tags) => tags.any fun tag => tag ∈ compatibleTags profile

end WheelForge.Target
