import ContainerLaunch.HostSide.Handshake
import Mathlib.Data.List.Infix
import Mathlib.Logic.Relation
/-!
# The handshake, step by step

The launcher and the host side act in an order that nobody fixes.  The launcher sends octets,
closes its end or loses it whenever it likes; the host side reads, performs the task and
answers, and everything that it does on the socket may fail or take too long.  Whatever
happens, the task is performed at most once and only after an octet was read, and nothing but
its outcome decides what is answered and which failure is reported.  The exchanges that come
to an end are the conversations with the peers, neither more nor fewer.
-/

namespace ContainerLaunch

namespace Event

/-- The octet that was received, if one was. -/
def received? : Event → Option UInt8
  | .received octet => some octet
  | _ => none

end Event

namespace Handshake

/-- How far the host side is. -/
inductive Phase where
  | waiting
  | triggered
  /-- The task has come to its end, and the answer is to be written. -/
  | performed (done : Except Error Unit)
  /-- The answer is written, and is to be handed on. -/
  | written (done : Except Error Unit)
  | ended (result : Except Error Unit)

/-- What has come of a handshake so far; `σ` is what the task works on. -/
structure Exchange (σ : Type) where
  phase : Phase
  state : σ
  /-- The octets that the launcher has sent, in order. -/
  offered : List UInt8
  /-- Those of them that were not read. -/
  unread : List UInt8
  /-- What has become of the launcher's end. -/
  line : Afterwards
  events : List Event
  notices : List Notice

variable {σ : Type} {limit : Option Duration} {task : ExceptT Error (StateM σ) Unit} {s : σ}
  {x y : Exchange σ} {peer : Peer} {done r : Except Error Unit}

/-- What a task makes of a state. -/
def runOf (task : ExceptT Error (StateM σ) Unit) (s : σ) : Except Error Unit × σ :=
  (ExceptT.run task).run s

namespace Exchange

def start (s : σ) : Exchange σ := ⟨.waiting, s, [], [], .silence, [], []⟩

/-- An octet was read. -/
def Triggered (x : Exchange σ) : Prop := ∃ octet, .received octet ∈ x.events

/-- The task was performed. -/
def Performed (x : Exchange σ) : Prop := ∃ succeeded, .finished succeeded ∈ x.events

end Exchange

/-- One step of the launcher or of the host side. -/
inductive Step (limit : Option Duration) (task : ExceptT Error (StateM σ) Unit) :
    Exchange σ → Exchange σ → Prop
  | send {x : Exchange σ} (octet : UInt8) (hopen : x.line = .silence) :
      Step limit task x
        { x with offered := x.offered ++ [octet], unread := x.unread ++ [octet] }
  /-- The launcher closes its end, or the connection is lost. -/
  | leave {x : Exchange σ} (how : Afterwards) (hopen : x.line = .silence) :
      Step limit task x { x with line := how }
  | read {x : Exchange σ} {octet : UInt8} {rest : List UInt8} (hphase : x.phase = .waiting)
      (hunread : x.unread = octet :: rest) :
      Step limit task x
        { x with phase := .triggered, unread := rest, events := x.events ++ [.received octet] }
  | endOfInput {x : Exchange σ} (hphase : x.phase = .waiting) (hunread : x.unread = [])
      (hclosed : x.line = .closed) :
      Step limit task x { x with phase := .ended (.error (.io .noTrigger)) }
  /-- Reading fails, and what was sent before may be lost with it. -/
  | readFails {x : Exchange σ} {cause : IoError} (hphase : x.phase = .waiting)
      (hbroken : x.line = .broken cause) :
      Step limit task x { x with phase := .ended (.error (.io cause)) }
  | waitedTooLong {x : Exchange σ} {bound : Duration} (hphase : x.phase = .waiting)
      (hlimit : limit = some bound) :
      Step limit task x
        { x with phase := .ended (.error (.timeout "waiting for lifecycle trigger" bound)) }
  | perform {x : Exchange σ} (hphase : x.phase = .triggered) :
      Step limit task x
        { x with
          phase := .performed (runOf task x.state).1
          state := (runOf task x.state).2
          events := x.events ++ [.finished ((runOf task x.state).1 matches .ok _)]
          notices := x.notices ++ taskNotices (runOf task x.state).1 }
  | write {x : Exchange σ} {done : Except Error Unit} (hphase : x.phase = .performed done) :
      Step limit task x
        { x with phase := .written done, events := x.events ++ [.sent (status done)] }
  /-- Writing fails, or handing on what was written does. -/
  | replyFails {x : Exchange σ} {done : Except Error Unit} (cause : IoError)
      (hphase : x.phase = .performed done ∨ x.phase = .written done) :
      Step limit task x
        { x with
          phase := .ended (orElse done (.io cause))
          notices := x.notices ++ [.statusNotSent cause] }
  | replyTooLong {x : Exchange σ} {done : Except Error Unit}
      (hphase : x.phase = .performed done ∨ x.phase = .written done) :
      Step limit task x { x with phase := .ended (orElse done replyTimeout) }
  | handOn {x : Exchange σ} {done : Except Error Unit} (hphase : x.phase = .written done) :
      Step limit task x { x with phase := .ended done }

/-- Any number of steps. -/
def Reaches (limit : Option Duration) (task : ExceptT Error (StateM σ) Unit) :
    Exchange σ → Exchange σ → Prop :=
  Relation.ReflTransGen (Step limit task)

/-! ## Conversations with a peer -/

section

variable (limit task s)

theorem serve_nil (hsends : peer.sends = []) :
    (serve peer limit task).run s = (⟨[], [], withoutTrigger peer.afterwards limit⟩, s) := by
  rw [serve, hsends]
  rfl

theorem serve_cons {octet : UInt8} {rest : List UInt8} (hsends : peer.sends = octet :: rest) :
    (serve peer limit task).run s =
      (afterTask octet (runOf task s).1 peer.reception, (runOf task s).2) := by
  rw [serve, hsends]
  rfl

end

/-! ## What holds in each phase -/

/-- What has happened in each phase. -/
def Course (limit : Option Duration) (task : ExceptT Error (StateM σ) Unit) (s : σ)
    (x : Exchange σ) : Prop :=
  match x.phase with
  | .waiting => x.events = [] ∧ x.notices = [] ∧ x.state = s
  | .triggered => ∃ octet, x.events = [.received octet] ∧ x.notices = [] ∧ x.state = s
  | .performed done =>
    ∃ octet, x.events = [.received octet, .finished (done matches .ok _)] ∧
      x.notices = taskNotices done ∧ (done, x.state) = runOf task s
  | .written done =>
    ∃ octet, x.events = [.received octet, .finished (done matches .ok _), .sent (status done)] ∧
      x.notices = taskNotices done ∧ (done, x.state) = runOf task s
  | .ended r =>
    ∃ peer, (serve peer limit task).run s = (⟨x.events, x.notices, some r⟩, x.state)

namespace Course

theorem unserved (hphase : x.phase = .waiting) (hcourse : Course limit task s x)
    (afterwards : Afterwards) (hends : withoutTrigger afterwards limit = some r) :
    Course limit task s { x with phase := .ended r } := by
  rw [Course, hphase] at hcourse
  obtain ⟨hevents, hnotices, hstate⟩ := hcourse
  refine ⟨⟨[], afterwards, .stuck⟩, ?_⟩
  rw [serve_nil limit task s rfl, hevents, hnotices, hstate, hends]

theorem served {octet : UInt8} (hended : x.phase = .ended r)
    (hrun : (done, x.state) = runOf task s) (reception : Reception)
    (hreply : afterTask octet done reception = ⟨x.events, x.notices, some r⟩) :
    Course limit task s x := by
  rw [Course, hended]
  refine ⟨⟨[octet], .silence, reception⟩, ?_⟩
  rw [serve_cons limit task s rfl, ← hrun, hreply]

/-- What holds in each phase is kept by every step. -/
theorem step (hstep : Step limit task x y) (hcourse : Course limit task s x) :
    Course limit task s y := by
  cases hstep with
  | send octet hopen => exact hcourse
  | leave how hopen => exact hcourse
  | read hphase hunread =>
      rw [Course, hphase] at hcourse
      obtain ⟨hevents, hnotices, hstate⟩ := hcourse
      exact ⟨_, by rw [hevents]; rfl, hnotices, hstate⟩
  | endOfInput hphase hunread hclosed => exact unserved hphase hcourse .closed rfl
  | readFails hphase hbroken => exact unserved hphase hcourse (.broken _) rfl
  | waitedTooLong hphase hlimit =>
      refine unserved hphase hcourse .silence ?_
      rw [hlimit]
      rfl
  | perform hphase =>
      rw [Course, hphase] at hcourse
      obtain ⟨octet, hevents, hnotices, rfl⟩ := hcourse
      exact ⟨octet, by rw [hevents]; rfl, by rw [hnotices]; rfl, rfl⟩
  | write hphase =>
      rw [Course, hphase] at hcourse
      obtain ⟨octet, hevents, hnotices, hrun⟩ := hcourse
      exact ⟨octet, by rw [hevents]; rfl, hnotices, hrun⟩
  | replyFails cause hphase =>
      rcases hphase with hphase | hphase
      · rw [Course, hphase] at hcourse
        obtain ⟨octet, hevents, hnotices, hrun⟩ := hcourse
        exact served rfl hrun (.refused cause) (by rw [hevents, hnotices]; rfl)
      · rw [Course, hphase] at hcourse
        obtain ⟨octet, hevents, hnotices, hrun⟩ := hcourse
        exact served rfl hrun (.unconfirmed (some cause)) (by rw [hevents, hnotices]; rfl)
  | replyTooLong hphase =>
      rcases hphase with hphase | hphase
      · rw [Course, hphase] at hcourse
        obtain ⟨octet, hevents, hnotices, hrun⟩ := hcourse
        exact served rfl hrun .stuck (by rw [hevents, hnotices]; rfl)
      · rw [Course, hphase] at hcourse
        obtain ⟨octet, hevents, hnotices, hrun⟩ := hcourse
        exact served rfl hrun (.unconfirmed none) (by rw [hevents, hnotices]; rfl)
  | handOn hphase =>
      rw [Course, hphase] at hcourse
      obtain ⟨octet, hevents, hnotices, hrun⟩ := hcourse
      exact served rfl hrun .accepted (by rw [hevents, hnotices]; rfl)

theorem ofReaches (hreaches : Reaches limit task (.start s) x) : Course limit task s x := by
  induction hreaches with
  | refl => exact ⟨rfl, rfl, rfl⟩
  | tail _ hstep ih => exact ih.step hstep

end Course

/-! ## Octets that were read -/

/-- What the launcher sent is what was received, and then what was not read. -/
def Accounted (x : Exchange σ) : Prop :=
  x.events.filterMap Event.received? ++ x.unread = x.offered

theorem Accounted.step (hstep : Step limit task x y) (haccounted : Accounted x) : Accounted y := by
  unfold Accounted at haccounted ⊢
  cases hstep with
  | send octet hopen => rw [← haccounted, List.append_assoc]
  | read hphase hunread =>
      rw [← haccounted, hunread, List.filterMap_append, List.append_assoc]
      rfl
  | perform hphase =>
      rw [← haccounted, List.filterMap_append]
      simp [Event.received?]
  | write hphase =>
      rw [← haccounted, List.filterMap_append]
      simp [Event.received?]
  | leave | endOfInput | readFails | waitedTooLong | replyFails | replyTooLong | handOn =>
      exact haccounted

theorem Accounted.ofReaches (hreaches : Reaches limit task (.start s) x) : Accounted x := by
  induction hreaches with
  | refl => rfl
  | tail _ hstep ih => exact ih.step hstep

/-! ## Which octets are sent does not matter -/

/-- An exchange with other octets in place of those of the launcher. -/
def Exchange.relabel (f : UInt8 → UInt8) (x : Exchange σ) : Exchange σ :=
  { x with
    offered := x.offered.map f
    unread := x.unread.map f
    events := x.events.map fun
      | .received octet => .received (f octet)
      | event => event }

theorem Step.relabel (f : UInt8 → UInt8) (hstep : Step limit task x y) :
    Step limit task (x.relabel f) (y.relabel f) := by
  cases hstep with
  | send octet hopen =>
      simpa [Exchange.relabel] using Step.send (x := x.relabel f) (f octet) hopen
  | leave how hopen => exact .leave (x := x.relabel f) how hopen
  | read hphase hunread =>
      simpa [Exchange.relabel] using
        Step.read (x := x.relabel f) hphase (by rw [Exchange.relabel, hunread]; rfl)
  | endOfInput hphase hunread hclosed =>
      exact .endOfInput (x := x.relabel f) hphase (by rw [Exchange.relabel, hunread]; rfl) hclosed
  | readFails hphase hbroken => exact .readFails (x := x.relabel f) hphase hbroken
  | waitedTooLong hphase hlimit => exact .waitedTooLong (x := x.relabel f) hphase hlimit
  | perform hphase =>
      simpa [Exchange.relabel] using Step.perform (x := x.relabel f) hphase
  | write hphase =>
      simpa [Exchange.relabel] using Step.write (x := x.relabel f) hphase
  | replyFails cause hphase => exact .replyFails (x := x.relabel f) cause hphase
  | replyTooLong hphase => exact .replyTooLong (x := x.relabel f) hphase
  | handOn hphase => exact .handOn (x := x.relabel f) hphase

theorem Reaches.relabel (f : UInt8 → UInt8) (hreaches : Reaches limit task x y) :
    Reaches limit task (x.relabel f) (y.relabel f) :=
  Relation.ReflTransGen.lift (Exchange.relabel f) (fun _ _ => Step.relabel f) _ _ hreaches

/-! ## Every conversation is an exchange -/

section

variable (limit task s)

theorem reaches_offered (octets : List UInt8) (afterwards : Afterwards) :
    Reaches limit task (.start s) ⟨.waiting, s, octets, octets, afterwards, [], []⟩ := by
  have hsent : Reaches limit task (.start s) ⟨.waiting, s, octets, octets, .silence, [], []⟩ := by
    induction octets using List.reverseRecOn with
    | nil => exact .refl
    | append_singleton earlier octet ih => exact .tail ih (.send octet rfl)
  exact .tail hsent (.leave afterwards rfl)

theorem reaches_performed (octet : UInt8) (rest : List UInt8) (afterwards : Afterwards) :
    Reaches limit task (.start s)
      ⟨.performed (runOf task s).1, (runOf task s).2, octet :: rest, rest, afterwards,
        [.received octet, .finished ((runOf task s).1 matches .ok _)],
        taskNotices (runOf task s).1⟩ := by
  have hread : Reaches limit task (.start s)
      ⟨.triggered, s, octet :: rest, rest, afterwards, [.received octet], []⟩ :=
    .tail (reaches_offered limit task s (octet :: rest) afterwards) (.read rfl rfl)
  exact .tail hread (.perform rfl)

theorem reaches_written (octet : UInt8) (rest : List UInt8) (afterwards : Afterwards) :
    Reaches limit task (.start s)
      ⟨.written (runOf task s).1, (runOf task s).2, octet :: rest, rest, afterwards,
        [.received octet, .finished ((runOf task s).1 matches .ok _),
          .sent (status (runOf task s).1)],
        taskNotices (runOf task s).1⟩ :=
  .tail (reaches_performed limit task s octet rest afterwards) (.write rfl)

/-- A conversation after a trigger comes about, whatever becomes of the answer. -/
theorem reaches_served (octet : UInt8) (rest : List UInt8)
    (afterwards : Afterwards) (reception : Reception) :
    ∃ x r, Reaches limit task (.start s) x ∧ x.phase = .ended r ∧ x.offered = octet :: rest ∧
      afterTask octet (runOf task s).1 reception = ⟨x.events, x.notices, some r⟩ ∧
      x.state = (runOf task s).2 := by
  have hperformed := reaches_performed limit task s octet rest afterwards
  have hwritten := reaches_written limit task s octet rest afterwards
  cases reception with
  | accepted => exact ⟨_, _, .tail hwritten (.handOn rfl), rfl, rfl, rfl, rfl⟩
  | refused cause =>
      exact ⟨_, _, .tail hperformed (.replyFails cause (.inl rfl)), rfl, rfl, rfl, rfl⟩
  | stuck => exact ⟨_, _, .tail hperformed (.replyTooLong (.inl rfl)), rfl, rfl, rfl, rfl⟩
  | unconfirmed cause =>
      cases cause with
      | some cause =>
          exact ⟨_, _, .tail hwritten (.replyFails cause (.inr rfl)), rfl, rfl, rfl, rfl⟩
      | none => exact ⟨_, _, .tail hwritten (.replyTooLong (.inr rfl)), rfl, rfl, rfl, rfl⟩

end

/-- A conversation that ends without a trigger comes about. -/
theorem reaches_unserved {afterwards : Afterwards}
    (hends : withoutTrigger afterwards limit = some r) :
    Reaches limit task (.start s) ⟨.ended r, s, [], [], afterwards, [], []⟩ := by
  refine .tail (reaches_offered limit task s [] afterwards) ?_
  cases afterwards with
  | closed =>
      obtain rfl := Option.some.inj hends
      exact .endOfInput rfl rfl rfl
  | broken cause =>
      obtain rfl := Option.some.inj hends
      exact .readFails rfl rfl
  | silence =>
      obtain ⟨bound, hbound, rfl⟩ := Option.map_eq_some_iff.mp hends
      exact .waitedTooLong rfl hbound

/-- Every conversation that ends comes about. -/
theorem reaches_of_serve (hends : ((serve peer limit task).run s).1.outcome = some r) :
    ∃ x, Reaches limit task (.start s) x ∧ x.phase = .ended r ∧ x.offered = peer.sends ∧
      (serve peer limit task).run s = (⟨x.events, x.notices, some r⟩, x.state) := by
  cases hsends : peer.sends with
  | nil =>
      have hrun := serve_nil limit task s hsends
      rw [hrun] at hends
      refine ⟨_, reaches_unserved hends, rfl, rfl, ?_⟩
      rw [hrun, show withoutTrigger peer.afterwards limit = some r from hends]
  | cons octet rest =>
      have hrun := serve_cons limit task s hsends
      obtain ⟨x, r', hreaches, hended, hoffered, hreply, hstate⟩ :=
        reaches_served limit task s octet rest peer.afterwards peer.reception
      rw [hreply, ← hstate] at hrun
      rw [hrun] at hends
      obtain rfl := Option.some.inj hends
      exact ⟨x, hreaches, hended, hoffered, hrun⟩

/-! ## The laws of the handshake -/

/-- Everything that can happen in a handshake, in order. -/
def script (task : ExceptT Error (StateM σ) Unit) (s : σ) (octet : UInt8) : List Event :=
  [.received octet, .finished ((runOf task s).1 matches .ok _), .sent (status (runOf task s).1)]

section Script

variable {n : Nat} {octet other : UInt8}

theorem received_mem_script :
    (∃ other, .received other ∈ (script task s octet).take n) ↔ 1 ≤ n := by
  match n with
  | 0 => simp
  | n + 1 => simp [script]

theorem finished_mem_script :
    (∃ succeeded, .finished succeeded ∈ (script task s octet).take n) ↔ 2 ≤ n := by
  match n with
  | 0 | 1 => simp [script]
  | n + 2 => simp [script]

theorem sent_mem_script :
    .sent other ∈ (script task s octet).take n ↔ 3 ≤ n ∧ other = status (runOf task s).1 := by
  match n with
  | 0 | 1 | 2 => simp [script]
  | n + 3 => simp [script]

end Script

/-- How an exchange that is over ended, where `n` of the events of its script happened: with
the failure to be triggered, or with the outcome of the task unless that was a success that
could not be answered. -/
def EndsWith (done : Except Error Unit) (n : Nat) (r : Except Error Unit) : Prop :=
  (n = 0 ∧ r ≠ .ok ()) ∨
    2 ≤ n ∧ (r = .ok () → done = .ok () ∧ 3 ≤ n) ∧ ∀ e, done = .error e → r = .error e

theorem endsWith_orElse (e : Error) {n : Nat} (hn : 2 ≤ n) :
    EndsWith done n (orElse done e) := by
  cases done <;> simp [EndsWith, orElse, hn]

theorem afterTask_endsWith {octet : UInt8} {reception : Reception} {c : Conversation}
    (hreply : afterTask octet (runOf task s).1 reception = c) :
    ∃ n, c.events = (script task s octet).take n ∧ 2 ≤ n ∧
      ∀ r, c.outcome = some r → EndsWith (runOf task s).1 n r := by
  subst hreply
  cases reception with
  | accepted =>
      refine ⟨3, rfl, by decide, ?_⟩
      rintro _ ⟨⟩
      simp [EndsWith]
  | refused cause =>
      refine ⟨2, rfl, le_rfl, ?_⟩
      rintro _ ⟨⟩
      exact endsWith_orElse _ le_rfl
  | stuck =>
      refine ⟨2, rfl, le_rfl, ?_⟩
      rintro _ ⟨⟩
      exact endsWith_orElse _ le_rfl
  | unconfirmed cause =>
      refine ⟨3, by cases cause <;> rfl, by decide, ?_⟩
      cases cause <;>
      · rintro _ ⟨⟩
        exact endsWith_orElse _ (by decide)

theorem withoutTrigger_ne_ok {afterwards : Afterwards}
    (hends : withoutTrigger afterwards limit = some r) : r ≠ .ok () := by
  rintro rfl
  cases afterwards <;> simp [withoutTrigger] at hends

/-- In an exchange the events are as many of the script as have happened, and the task is
performed with the second one. -/
theorem Course.upTo (hcourse : Course limit task s x) :
    ∃ octet n, x.events = (script task s octet).take n ∧
      x.state = (if 2 ≤ n then (runOf task s).2 else s) ∧
      ∀ r, x.phase = .ended r → EndsWith (runOf task s).1 n r := by
  unfold Course at hcourse
  cases hphase : x.phase with
  | waiting =>
      rw [hphase] at hcourse
      obtain ⟨hevents, -, hstate⟩ := hcourse
      exact ⟨0, 0, hevents, hstate, fun _ hended => by cases hended⟩
  | triggered =>
      rw [hphase] at hcourse
      obtain ⟨octet, hevents, -, hstate⟩ := hcourse
      exact ⟨octet, 1, hevents, hstate, fun _ hended => by cases hended⟩
  | performed done =>
      rw [hphase] at hcourse
      obtain ⟨octet, hevents, -, hrun⟩ := hcourse
      refine ⟨octet, 2, ?_, by rw [← hrun]; rfl, fun _ hended => by cases hended⟩
      rw [hevents, script, ← hrun]
      rfl
  | written done =>
      rw [hphase] at hcourse
      obtain ⟨octet, hevents, -, hrun⟩ := hcourse
      refine ⟨octet, 3, ?_, by rw [← hrun]; rfl, fun _ hended => by cases hended⟩
      rw [hevents, script, ← hrun]
      rfl
  | ended r =>
      rw [hphase] at hcourse
      obtain ⟨peer, hserve⟩ := hcourse
      cases hsends : peer.sends with
      | nil =>
          rw [serve_nil limit task s hsends] at hserve
          obtain ⟨hconversation, hstate⟩ := Prod.mk.inj hserve
          obtain ⟨hevents, -, hends⟩ := Conversation.mk.inj hconversation
          refine ⟨0, 0, hevents.symm, hstate.symm, ?_⟩
          rintro _ ⟨⟩
          exact .inl ⟨rfl, withoutTrigger_ne_ok hends⟩
      | cons octet rest =>
          rw [serve_cons limit task s hsends] at hserve
          obtain ⟨hconversation, hstate⟩ := Prod.mk.inj hserve
          obtain ⟨n, hevents, hn, hends⟩ := afterTask_endsWith hconversation
          refine ⟨octet, n, hevents, by rw [if_pos hn, ← hstate], ?_⟩
          rintro _ ⟨⟩
          exact hends r rfl

/-- What the handshake promises of an exchange. -/
structure Lawful (task : ExceptT Error (StateM σ) Unit) (s : σ) (x : Exchange σ) : Prop where
  /-- One octet is received, the task ends, its status is sent: each at most once, in this order. -/
  inOrder : ∃ octet, x.events <+: script task s octet
  /-- No other octet was taken from what the launcher sent. -/
  accounted : Accounted x
  /-- The task worked on the state as it was, once or not at all. -/
  performed : x.Performed → x.state = (runOf task s).2
  notPerformed : ¬ x.Performed → x.state = s
  triggered : x.Performed → x.Triggered
  triggeredEnded : ∀ r, x.phase = .ended r → (x.Performed ↔ x.Triggered)
  answer : ∀ octet, .sent octet ∈ x.events →
    x.Performed ∧ (octet = 0x63 ↔ (runOf task s).1 = .ok ()) ∧
      (octet = 0x66 ↔ ∃ e, (runOf task s).1 = .error e)
  success : x.phase = .ended (.ok ()) → (runOf task s).1 = .ok () ∧ .sent 0x63 ∈ x.events
  /-- The task's own failure is what is reported, whatever became of the answer. -/
  failure : ∀ e r, (runOf task s).1 = .error e → x.Performed → x.phase = .ended r → r = .error e

theorem status_eq_complete_iff : status done = 0x63 ↔ done = .ok () := by
  cases done with
  | ok _ => simp [status, complete]
  | error e => simp [status, failed]

theorem status_eq_failed_iff : status done = 0x66 ↔ ∃ e, done = .error e := by
  cases done with
  | ok _ => simp [status, complete]
  | error e => simp [status, failed]

theorem lawful_of_reaches (hreaches : Reaches limit task (.start s) x) : Lawful task s x := by
  obtain ⟨octet, n, hevents, hstate, hended⟩ := (Course.ofReaches hreaches).upTo
  have htriggered : x.Triggered ↔ 1 ≤ n := by
    rw [Exchange.Triggered, hevents, received_mem_script]
  have hperformed : x.Performed ↔ 2 ≤ n := by
    rw [Exchange.Performed, hevents, finished_mem_script]
  exact {
    inOrder := ⟨octet, hevents ▸ List.take_prefix n _⟩
    accounted := .ofReaches hreaches
    performed := fun hdone => by rw [hstate, if_pos (hperformed.mp hdone)]
    notPerformed := fun hnot => by rw [hstate, if_neg (mt hperformed.mpr hnot)]
    triggered := fun hdone => htriggered.mpr (Nat.le_of_succ_le (hperformed.mp hdone))
    triggeredEnded := fun r hr => by
      rw [hperformed, htriggered]
      rcases hended r hr with ⟨rfl, -⟩ | ⟨hn, -⟩
      · decide
      · exact iff_of_true hn (Nat.le_of_succ_le hn)
    answer := fun other hsent => by
      rw [hevents, sent_mem_script] at hsent
      obtain ⟨hn, rfl⟩ := hsent
      exact ⟨hperformed.mpr (Nat.le_of_succ_le hn), status_eq_complete_iff, status_eq_failed_iff⟩
    success := fun hr => by
      rcases hended _ hr with ⟨-, hfailed⟩ | ⟨-, hdone, -⟩
      · exact absurd rfl hfailed
      · obtain ⟨hok, hn⟩ := hdone rfl
        rw [hevents, sent_mem_script]
        exact ⟨hok, hn, (status_eq_complete_iff.mpr hok).symm⟩
    failure := fun e r he hdone hr => by
      rcases hended r hr with ⟨rfl, -⟩ | ⟨-, -, hfailed⟩
      · exact absurd (hperformed.mp hdone) (by decide)
      · exact hfailed e he }

/-- Every exchange that can come about, with any launcher, limit and task, is lawful; those
that are over are the conversations that end; and which octets the launcher sends makes no
difference to any of them. -/
theorem handshake_laws (limit : Option Duration) (task : ExceptT Error (StateM σ) Unit) (s : σ) :
    (∀ x, Reaches limit task (.start s) x → Lawful task s x) ∧
    (∀ x r, Reaches limit task (.start s) x → x.phase = .ended r →
      ∃ peer, (serve peer limit task).run s = (⟨x.events, x.notices, some r⟩, x.state)) ∧
    (∀ peer r, ((serve peer limit task).run s).1.outcome = some r →
      ∃ x, Reaches limit task (.start s) x ∧ x.phase = .ended r ∧ x.offered = peer.sends ∧
        (serve peer limit task).run s = (⟨x.events, x.notices, some r⟩, x.state)) ∧
    ∀ f x, Reaches limit task (.start s) x → Reaches limit task (.start s) (x.relabel f) := by
  refine ⟨fun x => lawful_of_reaches, fun x r hreaches hended => ?_, fun peer r => reaches_of_serve,
    fun f x => Reaches.relabel f⟩
  have hcourse := Course.ofReaches hreaches
  rwa [Course, hended] at hcourse

/-- A task that counts how often it is performed, and fails. -/
def countingTask : ExceptT Error (StateM Nat) Unit := do
  modify (· + 1)
  throw (.internal "busy")

/-- The launcher sends two octets, closes its end and does not take the answer: the second
octet stays unread, and the failure of the task is reported, not that of the answer. -/
theorem handshake_laws_closedEarly :
    ∃ x, Reaches none countingTask (.start 0) x ∧ Lawful countingTask 0 x ∧
      x.phase = .ended (.error (.internal "busy")) ∧ x.state = 1 ∧ x.unread = [2] ∧
      Reaches none countingTask (.start 0) (x.relabel fun _ => 0) := by
  have hreaches := Relation.ReflTransGen.tail
    (reaches_performed none countingTask 0 1 [2] .closed)
    (.replyFails (.system .brokenPipe) (.inl rfl))
  obtain ⟨hlawful, -, -, hrelabel⟩ := handshake_laws none countingTask 0
  exact ⟨_, hreaches, hlawful _ hreaches, rfl, rfl, rfl, hrelabel _ _ hreaches⟩

end Handshake
end ContainerLaunch
