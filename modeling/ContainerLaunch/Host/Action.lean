import ContainerLaunch.Host.State
/-!
# Actions on the host

What a launch does to the host: it opens and closes descriptors, writes and
removes files, runs programs and tells the user something.  An action may fail;
what it did before stays done.
-/

namespace ContainerLaunch

/-- An action on the host, with a result or an error. -/
abbrev Action := ExceptT Error (StateM Host)

/-- A file that was opened. -/
structure OpenFile where
  number : Nat
  place : Place
  inode : Inode
  deriving DecidableEq, Inhabited

namespace OpenFile

/-- The path under which the process finds the descriptor. -/
def handlePath (f : OpenFile) : Path :=
  Host.pathOfDescriptor f.number

end OpenFile

namespace Host

/-- The first number from 3 on that is not among those of open descriptors. -/
def freshNumber (h : Host) : Nat :=
  ((List.range' 3 (h.descriptors.length + 1)).find? fun n => (h.descriptor? n).isNone).getD 0

def addDescriptor (h : Host) (target : Target) : Host :=
  { h with descriptors := h.descriptors ++ [⟨h.freshNumber, target, true⟩] }

def dropDescriptor (h : Host) (number : Nat) : Host :=
  { h with descriptors := h.descriptors.filter fun d => d.number != number }

/-- The host with a descriptor that stays open when a program is executed. -/
def keepAcrossExec (h : Host) (number : Nat) : Host :=
  { h with
    descriptors := h.descriptors.map fun d =>
      if d.number = number then { d with closeOnExec := false } else d }

/-- The host in which the user was told something more. -/
def tell (h : Host) (n : Notice) : Host :=
  { h with journal := h.journal ++ [n] }

/-- What writing a file leaves on the host. -/
def writing (h : Host) (p : Path) (content : ByteArray) : Except IoError Host := do
  let place ← h.resolve true p
  match h.restrictions.refusal true place with
  | some errno => .error (.system errno)
  | none =>
    match h.look place with
    | none => .ok { h with tree := h.tree.put place ⟨.file content, 0, 0, false⟩ }
    | some inode =>
      if inode.isDirectory then .error (.system .isDirectory)
      else .ok { h with tree := h.tree.put place { inode with node := .file content } }

end Host

namespace Action

variable {α β : Type}

/-- What an action makes of a host. -/
def perform (a : Action α) (h : Host) : Except Error α × Host :=
  (ExceptT.run a).run h

/-- What the host is seen to be. -/
def observe (f : Host → α) : Action α := do
  return f (← get)

/-- The end of an action by an error. -/
def fail (e : Error) : Action α :=
  throw e

/-- A result that may already be an error. -/
def ofExcept (r : Except Error α) : Action α :=
  match r with
  | .ok a => pure a
  | .error e => fail e

/-- What the host is seen to be, where looking may fail. -/
def check (wrap : IoError → Error) (f : Host → Except IoError α) : Action α := do
  match ← observe f with
  | .ok a => return a
  | .error cause => fail (wrap cause)

/-- A change of the host that may fail, in which case nothing changes. -/
def change (wrap : IoError → Error) (f : Host → Except IoError Host) : Action Unit := do
  set (← check wrap f)

/-- The outcome of an action, be it an error. -/
def outcome (a : Action α) : Action (Except Error α) :=
  tryCatch (do return .ok (← a)) fun e => return .error e

def notify (n : Notice) : Action Unit :=
  modify fun h => h.tell n

def notifyAll (ns : List Notice) : Action Unit :=
  ns.forM notify

def newDescriptor (target : Target) : Action Nat := do
  let number ← observe Host.freshNumber
  modify fun h => h.addDescriptor target
  return number

/-- A descriptor for what was found by opening a path. -/
def openFound (found : Place × Inode) : Action OpenFile := do
  let number ← newDescriptor (.file found.1)
  return ⟨number, found.1, found.2⟩

def openFile (access : Access) (p : Path) : Action OpenFile := do
  openFound (← check (.atPath p) fun h => h.opening access p)

def close (number : Nat) : Action Unit :=
  modify fun h => h.dropDescriptor number

def readText (p : Path) : Action String :=
  check (.atPath p) fun h => h.readText p

def writeFile (p : Path) (content : ByteArray) : Action Unit :=
  change (.atPath p) fun h => h.writing p content

/-- Both ends of a new socket pair. -/
def socketPair : Action (Nat × Nat) := do
  let first ← newDescriptor .socket
  let second ← newDescriptor .socket
  return (first, second)

theorem perform_pure (a : α) (h : Host) : (pure a : Action α).perform h = (.ok a, h) := rfl

theorem perform_fail (e : Error) (h : Host) : (fail e : Action α).perform h = (.error e, h) := rfl

theorem perform_observe (f : Host → α) (h : Host) : (observe f).perform h = (.ok (f h), h) := rfl

theorem perform_notify (n : Notice) (h : Host) : (notify n).perform h = (.ok (), h.tell n) := rfl

/-- Performing one action after another. -/
theorem perform_bind (a : Action α) (f : α → Action β) (h : Host) :
    (a >>= f).perform h =
      match a.perform h with
      | (.ok x, h) => (f x).perform h
      | (.error e, h) => (.error e, h) := by
  simp only [perform, ExceptT.run_bind, StateT.run_bind]
  generalize (ExceptT.run a).run h = r
  obtain ⟨x | x, h'⟩ := r <;> rfl

/-- One action after another succeeds exactly if both do. -/
theorem perform_bind_ok {a : Action α} {f : α → Action β} {h h' : Host} {y : β} :
    (a >>= f).perform h = (.ok y, h') ↔
      ∃ x h₁, a.perform h = (.ok x, h₁) ∧ (f x).perform h₁ = (.ok y, h') := by
  rw [perform_bind]
  constructor
  · intro hy
    split at hy
    · next x h₁ hx => exact ⟨x, h₁, hx, hy⟩
    · simp at hy
  · rintro ⟨x, h₁, hx, hy⟩
    rw [hx]
    exact hy

/-- Looking at the host does not change it. -/
theorem perform_check_ok {wrap : IoError → Error} {f : Host → Except IoError α} {h h' : Host}
    {a : α} : (check wrap f).perform h = (.ok a, h') ↔ f h = .ok a ∧ h' = h := by
  simp only [check, perform_bind, perform_observe]
  cases hf : f h with
  | ok x => simp [perform_pure, eq_comm]
  | error e => simp [perform_fail]

end Action
end ContainerLaunch
