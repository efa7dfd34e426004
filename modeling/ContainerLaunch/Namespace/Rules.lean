import ContainerLaunch.Host.State
import ContainerLaunch.Namespace.Basic
import ContainerLaunch.Policy.Basic
/-!
# Namespaces under the policy

What the administrator's policy makes of the namespaces that a new container
asks for, and who may join a network namespace.  A process, IPC or host name
namespace that is switched off is taken out and the user is told; a user
namespace that is switched off ends the launch.
-/

namespace ContainerLaunch.NamespaceList

/-- The list without the namespaces of a kind that is switched off, and what the
user is told if there were any. -/
def withoutForbidden (s : NamespaceList) (allowed : Bool) (kind : NamespaceKind) :
    NamespaceList × List Notice :=
  if allowed || !s.has kind then (s, []) else (s.erase kind, [.notVirtualized kind])

/-- A user namespace is neither wanted nor needed where it is switched off. -/
def checkUser (s : NamespaceList) (allowed suidInstall : Bool) : Except Error Unit :=
  if allowed then .ok ()
  else if !suidInstall then
    .error (.disallowed "user namespace, required by an unprivileged installation")
  else if s.has .user then .error (.disallowed "user namespace, required by this container")
  else .ok ()

/-- What the policy makes of a list of namespaces. -/
structure Ruling where
  /-- What is left of the list; where the launch ends, what was left until then. -/
  namespaces : NamespaceList
  notices : List Notice
  verdict : Except Error Unit

/-- What the policy makes of the namespaces of a new container, which always has
its own mounts. -/
def underPolicy (s : NamespaceList) (p : Policy) (suidInstall hostnameWanted : Bool) : Ruling :=
  let s := s.add (.create .mount)
  let (s, aboutIpc) := s.withoutForbidden p.allowIpcNs .ipc
  let (s, aboutPid) := s.withoutForbidden p.allowPidNs .pid
  match s.checkUser p.allowUserNs suidInstall with
  | .error e => ⟨s, aboutIpc ++ aboutPid, .error e⟩
  | .ok () =>
    let (s, aboutUts) := s.withoutForbidden p.allowUtsNs .uts
    let aboutName := if !p.allowUtsNs && hostnameWanted then [.hostnameIgnored] else []
    ⟨s, aboutIpc ++ aboutPid ++ aboutUts ++ aboutName, .ok ()⟩

/-- The network namespace that the list asks to join. -/
def networkPath (s : NamespaceList) : Option Path :=
  (s.get? .network).bind Namespace.path

/-- Whether the policy lets a caller join a network namespace. -/
def mayJoinNetwork (p : Policy) (c : Caller) (path : Path) : Except Error Unit :=
  if !p.allowNetnsPaths.any path.same then
    .error (.disallowed s!"{path} as a network namespace path (not in allow-netns-paths)")
  else if !c.isInUsers p.allowNetUsers && !c.isInGroups p.allowNetGroups then
    .error (.disallowed "you from joining network namespaces")
  else .ok ()

/-- The network namespace to be joined, if there is one and the caller may join
it. -/
def authorizeNetwork (s : NamespaceList) (h : Host) (p : Policy) (c : Caller) :
    Except Error (Option Path) :=
  match s.networkPath with
  | none => .ok none
  | some path =>
    match h.stat path with
    | .error cause => .error (.atPath path cause)
    | .ok _ =>
      if c.euid == 0 then .ok (some path)
      else (mayJoinNetwork p c path).map fun _ => some path

end ContainerLaunch.NamespaceList
