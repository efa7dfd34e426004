import ContainerLaunch.Host.State
import ContainerLaunch.Json.Codec
import ContainerLaunch.Json.Reader
import ContainerLaunch.Timestamp
/-!
# Instance records

A running instance is described by a file below the home directory of its user.
The file is the user's, so nothing in it is trusted before the process it names
has been examined.
-/

namespace ContainerLaunch

/-- The description of a running instance. -/
structure InstanceRecord where
  name : String
  pid : Int32
  ppid : Int32
  userNamespace : Bool
  cgroup : Bool
  config : Json
  created : Option Timestamp
  deriving Inhabited

namespace InstanceRecord

/-- A point in time as a text. -/
def createdCodec : Json.Codec Timestamp where
  write t := .string t.text
  read
    | .string s => Timestamp.parse s
    | _ => none

def schema : Json.Schema InstanceRecord where
  fields := [
    .needed "name" .text name fun v r => { r with name := v },
    .needed "pid" .i32 pid fun v r => { r with pid := v },
    .needed "ppid" .i32 ppid fun v r => { r with ppid := v },
    .plain "userns" .flag userNamespace fun v r => { r with userNamespace := v },
    .plain "cgroup" .flag cgroup fun v r => { r with cgroup := v },
    .plain "config" (.anything 126) config fun v r => { r with config := v },
    .optional "created" createdCodec created fun v r => { r with created := v }]
  initial := ⟨"", 0, 0, false, false, .null, none⟩

def parse (text : String) : Except Error InstanceRecord :=
  match Json.parse text >>= schema.read with
  | some record => .ok record
  | none => .error (.malformed "not an instance record")

/-- Where the record of an instance is kept. -/
def location (home : Path) (hostname name : String) : Path :=
  ((home.join ⟨".stagehand/instances"⟩).join ⟨hostname⟩).join ⟨name ++ ".json"⟩

def load (h : Host) (p : Path) : Except Error InstanceRecord :=
  match h.readBytes p with
  | .error cause => .error (.atPath p cause)
  | .ok bytes =>
    match Text.readText bytes with
    | some text => parse text
    | none => .error (.malformed "not an instance record")

/-- Whether a caller needs a privileged launch to join the instance. -/
def needsSuid (r : InstanceRecord) (uid : UInt32) : Bool :=
  uid != 0 && !r.userNamespace

/-- Whether a launch is privileged exactly if it has to be, and the process
numbers are those of an instance; if so, whether it has to be privileged. -/
def checkJoin (r : InstanceRecord) (uid : UInt32) (isSuid : Bool) : Except Error Bool :=
  if isSuid && !r.needsSuid uid then
    .error (.privilegeMismatch "joining user namespace with suid workflow is not allowed")
  else if !isSuid && r.needsSuid uid then
    .error (.privilegeMismatch "a setuid installation is required to join this instance")
  else if r.pid ≤ 1 || r.ppid ≤ 1 then
    .error (.instanceIntegrity "bad instance process ID found")
  else .ok (r.needsSuid uid)

end InstanceRecord
end ContainerLaunch
