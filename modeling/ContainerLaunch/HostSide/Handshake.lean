import ContainerLaunch.Notice
/-!
# The handshake with the launcher

A task of the host side is started by the launcher over a socket.  One octet of
any value triggers it, and one octet answers how it went.  Everything that can
happen to either is part of the behaviour of the peer, and a conversation is
recorded as the events in it, in order.
-/

namespace ContainerLaunch

/-- What happens after the octets that a peer sends. -/
inductive Afterwards where
  /-- Nothing more is sent. -/
  | silence
  | closed
  /-- Reading fails. -/
  | broken (cause : IoError)
  deriving DecidableEq, Repr, Inhabited

/-- What happens to an answer. -/
inductive Reception where
  | accepted
  /-- Sending it fails. -/
  | refused (cause : IoError)
  /-- It is never taken. -/
  | stuck
  /-- It is taken, but handing it on fails, or without a cause does not end. -/
  | unconfirmed (cause : Option IoError)
  deriving DecidableEq, Repr, Inhabited

/-- How the other end of a socket behaves. -/
structure Peer where
  sends : List UInt8
  afterwards : Afterwards
  reception : Reception
  deriving DecidableEq, Repr, Inhabited

/-- Something that happens in a conversation. -/
inductive Event where
  | received (octet : UInt8)
  | finished (succeeded : Bool)
  | sent (octet : UInt8)
  deriving DecidableEq, Repr, Inhabited

structure Conversation where
  /-- What happened, in order. -/
  events : List Event
  notices : List Notice
  /-- How it ended, if it ended. -/
  outcome : Option (Except Error Unit)
  deriving Inhabited

namespace Event

/-- The octet that was sent, if one was. -/
def sent? : Event → Option UInt8
  | .sent octet => some octet
  | _ => none

end Event

namespace Handshake

/-- The answer after a task that succeeded. -/
def complete : UInt8 := 0x63

/-- The answer after a task that failed. -/
def failed : UInt8 := 0x66

def replyLimit : Duration := .ofSeconds 10

def status (done : Except Error Unit) : UInt8 :=
  match done with
  | .ok () => complete
  | .error _ => failed

/-- An error that counts unless there was one before. -/
def orElse (done : Except Error Unit) (e : Error) : Except Error Unit :=
  match done with
  | .ok () => .error e
  | .error first => .error first

/-- What the user is told about a task. -/
def taskNotices (done : Except Error Unit) : List Notice :=
  match done with
  | .ok () => []
  | .error e => [.taskFailed e]

/-- What the user is told where the answer could not be sent as well. -/
def unsentNotices (done : Except Error Unit) (cause : IoError) : List Notice :=
  taskNotices done ++ [.statusNotSent cause]

/-- Sending the answer took too long. -/
def replyTimeout : Error :=
  .timeout "sending lifecycle status" replyLimit

/-- The conversation after a task that an octet triggered. -/
def afterTask (octet : UInt8) (done : Except Error Unit) (reception : Reception) : Conversation :=
  let events := [.received octet, .finished (done matches .ok _)]
  let answered := events ++ [.sent (status done)]
  match reception with
  | .accepted => ⟨answered, taskNotices done, some done⟩
  | .refused cause => ⟨events, unsentNotices done cause, some (orElse done (.io cause))⟩
  | .stuck => ⟨events, taskNotices done, some (orElse done replyTimeout)⟩
  | .unconfirmed (some cause) =>
    ⟨answered, unsentNotices done cause, some (orElse done (.io cause))⟩
  | .unconfirmed none => ⟨answered, taskNotices done, some (orElse done replyTimeout)⟩

/-- How waiting for a trigger that does not come ends, if it ends. -/
def withoutTrigger (afterwards : Afterwards) (limit : Option Duration) :
    Option (Except Error Unit) :=
  match afterwards with
  | .closed => some (.error (.io .noTrigger))
  | .broken cause => some (.error (.io cause))
  | .silence => limit.map fun limit => .error (.timeout "waiting for lifecycle trigger" limit)

/-- The trigger is waited for, the task done and its outcome answered. -/
def serve {σ : Type} (peer : Peer) (limit : Option Duration)
    (task : ExceptT Error (StateM σ) Unit) : StateM σ Conversation := do
  match peer.sends with
  | [] => return ⟨[], [], withoutTrigger peer.afterwards limit⟩
  | octet :: _ =>
    let done ← task.run
    return afterTask octet done peer.reception

def reply (c : Conversation) : List UInt8 :=
  c.events.filterMap Event.sent?

end Handshake
end ContainerLaunch
