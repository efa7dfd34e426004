import ContainerLaunch.Proofs.Actions
/-!
# Actions that come to the same

Two actions come to the same where on any two hosts that differ at most in what the user was
told so far, both fail with one error or both succeed with results that are related, and
leave two such hosts again.  What lasts of the hosts is given, and neither action changes
it.  An action that comes to the same as itself does not heed what the user was told.
-/

namespace ContainerLaunch

namespace Host

/-- A host on which more descriptors are open and more was told, and nothing else is
different. -/
structure Grown (base h : Host) : Prop where
  lasting_eq : h.lasting = base.lasting
  descriptors_kept : base.descriptors <+: h.descriptors

theorem Grown.addDescriptor {base h : Host} (hgrown : base.Grown h) (target : Target) :
    base.Grown (h.addDescriptor target) :=
  ⟨hgrown.lasting_eq, hgrown.descriptors_kept.trans (List.prefix_append _ _)⟩

/-- Two hosts that differ at most in what the user was told, and that have grown out of a
third. -/
structure SameBeside (base h k : Host) : Prop where
  eq : k = { h with journal := k.journal }
  grown : base.Grown h

theorem SameBeside.tellAll {base h k : Host} (hsame : base.SameBeside h k) (ns ms : List Notice) :
    base.SameBeside (h.tellAll ns) (k.tellAll ms) := by
  refine ⟨?_, hsame.grown.lasting_eq, hsame.grown.descriptors_kept⟩
  rw [hsame.eq]
  rfl

theorem SameBeside.addDescriptor {base h k : Host} (hsame : base.SameBeside h k)
    (target : Target) : base.SameBeside (h.addDescriptor target) (k.addDescriptor target) := by
  refine ⟨?_, hsame.grown.addDescriptor target⟩
  rw [hsame.eq]
  rfl

end Host

namespace Action

variable {base : Host} {α β γ δ : Type} {R : α → β → Prop} {S : γ → δ → Prop}

/-- Two runs that end alike: with one error or with results that are related, and on hosts
that differ at most in what the user was told. -/
inductive EndsAlike (base : Host) (R : α → β → Prop) :
    Except Error α × Host → Except Error β × Host → Prop
  | ok {x : α} {y : β} {h k : Host} (hrelated : R x y) (hsame : base.SameBeside h k) :
      EndsAlike base R (.ok x, h) (.ok y, k)
  | error {e : Error} {h k : Host} (hsame : base.SameBeside h k) :
      EndsAlike base R (.error e, h) (.error e, k)

/-- Two actions that come to the same up to a relation of their results. -/
def Alike (base : Host) (R : α → β → Prop) (a : Action α) (b : Action β) : Prop :=
  ∀ h k, base.SameBeside h k → EndsAlike base R (a.perform h) (b.perform k)

theorem alike_imp {R' : α → β → Prop} {a : Action α} {b : Action β}
    (himp : ∀ x y, R x y → R' x y) (halike : Alike base R a b) : Alike base R' a b := by
  intro h k hsame
  have hends := halike h k hsame
  generalize a.perform h = r at hends ⊢
  generalize b.perform k = s at hends ⊢
  cases hends with
  | ok hrelated hleft => exact .ok (himp _ _ hrelated) hleft
  | error hleft => exact .error hleft

theorem alike_pure {x : α} {y : β} (hrelated : R x y) :
    Alike base R (pure x : Action α) (pure y : Action β) :=
  fun _ _ hsame => .ok hrelated hsame

theorem alike_fail (e : Error) : Alike base R (fail e : Action α) (fail e : Action β) :=
  fun _ _ hsame => .error hsame

theorem alike_observe {f : Host → α} {g : Host → β}
    (hseen : ∀ h journal, R (f h) (g { h with journal := journal })) :
    Alike base R (observe f) (observe g) := by
  intro h k hsame
  rw [perform_observe, perform_observe]
  refine .ok ?_ hsame
  rw [hsame.eq]
  exact hseen h k.journal

/-- A result does not depend on the host at all. -/
theorem alike_ofExcept {x : Except Error α} {y : Except Error β}
    (hok : ∀ a, x = .ok a → ∃ b, y = .ok b ∧ R a b) (herror : ∀ e, x = .error e → y = .error e) :
    Alike base R (ofExcept x) (ofExcept y) := by
  cases x with
  | ok a =>
      obtain ⟨b, rfl, hrelated⟩ := hok a rfl
      exact alike_pure hrelated
  | error e =>
      rw [herror e rfl]
      exact alike_fail e

theorem alike_notifyAll (ns ms : List Notice) :
    Alike base (fun _ _ => True) (notifyAll ns) (notifyAll ms) := by
  intro h k hsame
  rw [perform_notifyAll, perform_notifyAll]
  exact .ok trivial (hsame.tellAll ns ms)

theorem alike_notify (n m : Notice) :
    Alike base (fun _ _ => True) (notify n) (notify m) := by
  intro h k hsame
  exact .ok trivial (hsame.tellAll [n] [m])

theorem alike_bind {a : Action α} {b : Action β} {f : α → Action γ} {g : β → Action δ}
    (hfirst : Alike base R a b) (hrest : ∀ x y, R x y → Alike base S (f x) (g y)) :
    Alike base S (a >>= f) (b >>= g) := by
  intro h k hsame
  have hends := hfirst h k hsame
  rw [perform_bind, perform_bind]
  generalize a.perform h = r at hends
  generalize b.perform k = s at hends
  cases hends with
  | ok hrelated hsame => exact hrest _ _ hrelated _ _ hsame
  | error hsame => exact .error hsame

/-- Steps that look at the whole host and come to the same whatever the user was told. -/
theorem alike_observe_bind {f : Host → Action γ} {g : Host → Action δ}
    (hrest : ∀ h journal, Alike base S (f h) (g { h with journal := journal })) :
    Alike base S (observe id >>= f) (observe id >>= g) := by
  intro h k hsame
  rw [perform_observe_bind, perform_observe_bind, id, id]
  have hsteps := hrest h k.journal
  rw [← hsame.eq] at hsteps
  exact hsteps h k hsame

theorem alike_ite {p : Prop} [Decidable p] {a a' : Action α} {b b' : Action β}
    (hthen : Alike base R a b) (helse : Alike base R a' b') :
    Alike base R (if p then a else a') (if p then b else b') := by
  split
  · exact hthen
  · exact helse

theorem alike_refuse {p : Prop} [Decidable p] {e : Error} {f : Unit → Action α}
    {g : Unit → Action β} (hrest : Alike base R (f ()) (g ())) :
    Alike base R (if p then (fail e : Action Unit) >>= f else f ())
      (if p then (fail e : Action Unit) >>= g else g ()) :=
  alike_ite (alike_bind (R := (· = ·)) (alike_fail e) fun _ _ _ => hrest) hrest

theorem alike_either {p : Prop} [Decidable p] {a a' : Action α} {b b' : Action β}
    {f : α → Action γ} {g : β → Action δ} (hthen : Alike base R a b) (helse : Alike base R a' b')
    (hrest : ∀ x y, R x y → Alike base S (f x) (g y)) :
    Alike base S (if p then a >>= f else a' >>= f) (if p then b >>= g else b' >>= g) :=
  alike_ite (alike_bind hthen hrest) (alike_bind helse hrest)

theorem alike_tryCatch {a : Action α} {b : Action β} {f : Error → Action α} {g : Error → Action β}
    (hfirst : Alike base R a b) (hrest : ∀ e, Alike base R (f e) (g e)) :
    Alike base R (tryCatch a f) (tryCatch b g) := by
  intro h k hsame
  have hends := hfirst h k hsame
  rw [perform_tryCatch, perform_tryCatch]
  generalize a.perform h = r at hends
  generalize b.perform k = s at hends
  cases hends with
  | ok hrelated hsame => exact .ok hrelated hsame
  | error hsame => exact hrest _ _ _ hsame

/-! ## Actions that do not heed what the user was told -/

/-- The action comes to the same as itself. -/
def Heedless (base : Host) (a : Action α) : Prop :=
  Alike base (· = ·) a a

theorem heedless_pure (x : α) : Heedless base (pure x : Action α) :=
  alike_pure rfl

theorem heedless_observe {f : Host → α}
    (hseen : ∀ h journal, f { h with journal := journal } = f h) :
    Heedless base (observe f) :=
  alike_observe fun h journal => (hseen h journal).symm

theorem heedless_ofExcept (x : Except Error α) : Heedless base (ofExcept x) :=
  alike_ofExcept (fun a hx => ⟨a, hx, rfl⟩) fun _ hx => hx

theorem heedless_bind {a : Action α} {f : α → Action γ} (hfirst : Heedless base a)
    (hrest : ∀ x, Heedless base (f x)) : Heedless base (a >>= f) :=
  alike_bind hfirst fun x _ hx => hx ▸ hrest x

theorem heedless_outcome {a : Action α} (ha : Heedless base a) : Heedless base (outcome a) :=
  alike_tryCatch (heedless_bind ha fun _ => heedless_pure _) fun _ => heedless_pure _

theorem heedless_check (wrap : IoError → Error) {f : Host → Except IoError α}
    (hseen : ∀ h journal, f { h with journal := journal } = f h) :
    Heedless base (check wrap f) := by
  refine heedless_bind (heedless_observe hseen) fun r => ?_
  cases r with
  | ok a => exact heedless_pure a
  | error cause => exact alike_fail _

theorem heedless_newDescriptor (target : Target) : Heedless base (newDescriptor target) := by
  intro h k hsame
  rw [hsame.eq]
  exact .ok rfl ⟨rfl, hsame.grown.addDescriptor target⟩

theorem heedless_openFound (found : Place × Inode) : Heedless base (openFound found) :=
  heedless_bind (heedless_newDescriptor _) fun _ => heedless_pure _

theorem heedless_openFile (access : Access) (p : Path) : Heedless base (openFile access p) :=
  heedless_bind (heedless_check _ fun _ _ => rfl) heedless_openFound

theorem heedless_socketPair : Heedless base socketPair :=
  heedless_bind (heedless_newDescriptor _) fun _ =>
    heedless_bind (heedless_newDescriptor _) fun _ => heedless_pure _

end Action
end ContainerLaunch
