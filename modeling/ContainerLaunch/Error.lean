import ContainerLaunch.Errno
import ContainerLaunch.Path
import ContainerLaunch.Text.Numeral
/-!
# Errors

Why a preparation or a host-side task fails.  Every error has a message, a
category that says how a caller should treat it, and a mark that says whether it
ends the launch; only a read-only file system leaves a way on.
-/

namespace ContainerLaunch

/-- Why an operation on a file or a socket fails. -/
inductive IoError where
  | system (errno : Errno)
  | nulInName
  | nulInArgument
  /-- The file ends before what was to be read. -/
  | endOfFile
  | notText
  | noTrigger
  deriving DecidableEq, Repr, Inhabited

namespace IoError

def message : IoError → String
  | .system errno => s!"{errno.text} (os error {errno.code})"
  | .nulInName => "file name contained an unexpected NUL byte"
  | .nulInArgument => "nul byte found in provided data"
  | .endOfFile => "failed to fill whole buffer"
  | .notText => "stream did not contain valid UTF-8"
  | .noTrigger => "lifecycle peer closed before sending the trigger"

/-- Whether the error says that there is no such file. -/
def isNotFound (e : IoError) : Bool :=
  e == .system .noEntry

/-- Whether the error says that access is denied. -/
def isDenied (e : IoError) : Bool :=
  e == .system .accessDenied || e == .system .notPermitted

end IoError

/-- Why a preparation or a host-side task fails. -/
inductive Error where
  | disallowed (what : String)
  | disabled (feature directive : String)
  | invalid (what : String)
  | untrustedPolicy (path : Path) (reason : String)
  | privilegeMismatch (what : String)
  | instanceIntegrity (what : String)
  | unavailable (resource reason : String)
  | capacityExceeded (field : String) (limit : Nat)
  | readOnlyFilesystem (path : Path)
  | atPath (path : Path) (cause : IoError)
  | io (cause : IoError)
  | call (name : String) (errno : Errno)
  | malformed (detail : String)
  | timeout (operation : String) (after : Duration)
  | cleanup (failures : List String)
  | internal (what : String)
  deriving DecidableEq, Repr, Inhabited

namespace Error

def message : Error → String
  | .disallowed what => s!"configuration disallows {what}"
  | .disabled feature directive => s!"{feature} disabled by configuration '{directive}'"
  | .invalid what => s!"invalid configuration: {what}"
  | .untrustedPolicy path reason => s!"policy file {path} cannot be trusted: {reason}"
  | .privilegeMismatch what => s!"privilege mismatch: {what}"
  | .instanceIntegrity what => s!"instance integrity check failed: {what}"
  | .unavailable resource reason => s!"{resource} unavailable: {reason}"
  | .capacityExceeded field limit => s!"{field} exceeds starter capacity ({limit})"
  | .readOnlyFilesystem path => s!"{path} is on a read-only filesystem"
  | .atPath path cause => s!"{path}: {cause.message}"
  | .io cause => s!"I/O error: {cause.message}"
  | .call name errno => s!"{name} failed: {errno.description}"
  | .malformed detail => s!"serialization error: {detail}"
  | .timeout operation after => s!"operation timed out after {after.text}: {operation}"
  | .cleanup failures => "encountered errors during cleanup: " ++ Text.join "; " failures
  | .internal what => s!"internal error: {what}"

/-- How a caller should treat an error. -/
inductive Category where
  /-- The policy or the request forbids the launch; never tried again. -/
  | disallowed
  | policyIntegrity
  | privilegeMismatch
  | instanceIntegrity
  | unavailable
  | transient
  | internal
  deriving DecidableEq, Repr

def category : Error → Category
  | .disallowed _ | .disabled .. | .invalid _ => .disallowed
  | .untrustedPolicy .. => .policyIntegrity
  | .privilegeMismatch _ => .privilegeMismatch
  | .instanceIntegrity _ => .instanceIntegrity
  | .unavailable .. | .capacityExceeded .. => .unavailable
  | .readOnlyFilesystem _ | .atPath .. | .io _ | .call .. | .timeout .. | .cleanup _ => .transient
  | .malformed _ | .internal _ => .internal

def isFatal : Error → Bool
  | .readOnlyFilesystem _ => false
  | _ => true

/-- Only a read-only file system leaves a way on. -/
theorem isFatal_eq_false_iff (e : Error) :
    e.isFatal = false ↔ ∃ path, e = .readOnlyFilesystem path := by
  cases e <;> simp [isFatal]

end Error
end ContainerLaunch
