import ContainerLaunch.Host.Run
/-!
# What actions do

Two ways of speaking about actions.  A successful run is opened from the outside
by the lemmas of the first section, one for each primitive; together with
`perform_bind_ok` they turn a run of a `do` block into the runs of its parts.

The second section follows what lasts on the host, whichever way an action
ends.  Most actions open descriptors and tell the user something but touch
nothing else; such actions are called quiet, and quietness is closed under
everything that a `do` block is made of.
-/

namespace ContainerLaunch

/-- One check after another succeeds exactly if both do. -/
theorem Error.bind_eq_ok {α β : Type} {x : Except Error α} {f : α → Except Error β} {b : β} :
    x >>= f = .ok b ↔ ∃ a, x = .ok a ∧ f a = .ok b := by
  cases x with
  | ok a => simp [Bind.bind, Except.bind]
  | error e => simp [Bind.bind, Except.bind]

/-- One check after another fails if the first does, or the second after it. -/
theorem Error.bind_eq_error {α β : Type} {x : Except Error α} {f : α → Except Error β}
    {e : Error} : x >>= f = .error e ↔ x = .error e ∨ ∃ a, x = .ok a ∧ f a = .error e := by
  cases x with
  | ok a => simp [Bind.bind, Except.bind]
  | error e => simp [Bind.bind, Except.bind]

theorem Error.map_eq_ok {α β : Type} {x : Except Error α} {f : α → β} {b : β} :
    f <$> x = .ok b ↔ ∃ a, x = .ok a ∧ f a = b := by
  cases x with
  | ok a => simp [Functor.map, Except.map]
  | error e => simp [Functor.map, Except.map]

/-- A result of which something is known is there. -/
theorem Error.exists_ok_of_map {α β : Type} {x : Except Error α} {f : α → β} {b : β}
    (hx : x.toOption.map f = some b) : ∃ a, x = .ok a ∧ f a = b := by
  cases x with
  | ok a => exact ⟨a, rfl, by simpa [Except.toOption] using hx⟩
  | error e => simp [Except.toOption] at hx

namespace Host

/-- The host in which the user was told several things more. -/
def tellAll (h : Host) (ns : List Notice) : Host :=
  { h with journal := h.journal ++ ns }

/-- The host without what actions come and go with: its descriptors and what the
user was told. -/
def lasting (h : Host) : Host :=
  { h with descriptors := [], journal := [] }

@[simp] theorem tellAll_nil (h : Host) : h.tellAll [] = h := by
  simp [tellAll]

theorem tellAll_tellAll (h : Host) (ns ms : List Notice) :
    (h.tellAll ns).tellAll ms = h.tellAll (ns ++ ms) := by
  simp [tellAll]

theorem tree_eq_of_lasting {h h' : Host} (hlast : h'.lasting = h.lasting) :
    h'.tree = h.tree := by
  simpa [lasting] using congrArg Host.tree hlast

theorem users_eq_of_lasting {h h' : Host} (hlast : h'.lasting = h.lasting) :
    h'.users = h.users := by
  simpa [lasting] using congrArg Host.users hlast

end Host

namespace Action

variable {α β : Type} {h h' : Host}

/-! ## Successful runs -/

@[simp] theorem perform_pure_ok {a b : α} :
    (pure a : Action α).perform h = (.ok b, h') ↔ a = b ∧ h = h' := by
  simp [perform_pure]

@[simp] theorem perform_fail_ok {e : Error} {a : α} :
    (fail e : Action α).perform h = (.ok a, h') ↔ False := by
  simp [perform_fail]

@[simp] theorem perform_observe_ok {f : Host → α} {a : α} :
    (observe f).perform h = (.ok a, h') ↔ f h = a ∧ h = h' := by
  simp [perform_observe]

theorem perform_ofExcept (r : Except Error α) (h : Host) :
    (ofExcept r).perform h = (r, h) := by
  cases r <;> rfl

@[simp] theorem perform_ofExcept_ok {r : Except Error α} {a : α} :
    (ofExcept r).perform h = (.ok a, h') ↔ r = .ok a ∧ h = h' := by
  simp [perform_ofExcept]

theorem perform_notifyAll (ns : List Notice) (h : Host) :
    (notifyAll ns).perform h = (.ok (), h.tellAll ns) := by
  induction ns generalizing h with
  | nil => simp [notifyAll, perform_pure]
  | cons n rest ih =>
      change (notify n >>= fun _ => notifyAll rest).perform h = _
      rw [perform_bind, perform_notify]
      simp [ih, Host.tell, Host.tellAll]

/-- An action whose result is put into another form. -/
theorem perform_map (f : α → β) (a : Action α) (h : Host) :
    (f <$> a).perform h = ((a.perform h).1.map f, (a.perform h).2) := by
  rw [← bind_pure_comp, perform_bind]
  generalize a.perform h = r
  obtain ⟨x | x, h'⟩ := r <;> rfl

@[simp] theorem perform_map_ok {f : α → β} {a : Action α} {b : β} :
    (f <$> a).perform h = (.ok b, h') ↔ ∃ x, a.perform h = (.ok x, h') ∧ f x = b := by
  rw [← bind_pure_comp, perform_bind_ok]
  simp only [perform_pure_ok]
  constructor
  · rintro ⟨x, h₁, hx, rfl, rfl⟩
    exact ⟨x, hx, rfl⟩
  · rintro ⟨x, hx, rfl⟩
    exact ⟨x, h', hx, rfl, rfl⟩

@[simp] theorem perform_observe_bind (f : Host → α) (g : α → Action β) (h : Host) :
    (observe f >>= g).perform h = (g (f h)).perform h := by
  rw [perform_bind, perform_observe]

@[simp] theorem perform_notify_bind (n : Notice) (g : Unit → Action β) (h : Host) :
    (notify n >>= g).perform h = (g ()).perform (h.tell n) := by
  rw [perform_bind, perform_notify]

@[simp] theorem perform_notifyAll_bind (ns : List Notice) (g : Unit → Action β) (h : Host) :
    (notifyAll ns >>= g).perform h = (g ()).perform (h.tellAll ns) := by
  rw [perform_bind, perform_notifyAll]

@[simp] theorem perform_fail_bind_ok {e : Error} {g : α → Action β} {b : β} :
    ((fail e : Action α) >>= g).perform h = (.ok b, h') ↔ False := by
  simp [perform_bind, perform_fail]

@[simp] theorem perform_ofExcept_bind_ok {r : Except Error α} {g : α → Action β} {b : β} :
    (ofExcept r >>= g).perform h = (.ok b, h') ↔
      ∃ a, r = .ok a ∧ (g a).perform h = (.ok b, h') := by
  cases r <;> simp [perform_bind, perform_ofExcept]

theorem perform_openFound (found : Place × Inode) (h : Host) :
    (openFound found).perform h =
      (.ok ⟨h.freshNumber, found.1, found.2⟩, h.addDescriptor (.file found.1)) :=
  rfl

/-- Opening a path adds one descriptor for what is found there. -/
theorem perform_openFile_ok {access : Access} {p : Path} {file : OpenFile} :
    (openFile access p).perform h = (.ok file, h') ↔
      h.opening access p = .ok (file.place, file.inode) ∧ file.number = h.freshNumber ∧
        h' = h.addDescriptor (.file file.place) := by
  simp only [openFile, perform_bind_ok, perform_check_ok]
  constructor
  · rintro ⟨found, h₁, ⟨hfound, rfl⟩, hopen⟩
    rw [perform_openFound] at hopen
    cases hopen
    exact ⟨hfound, rfl, rfl⟩
  · rintro ⟨hfound, hnumber, rfl⟩
    refine ⟨(file.place, file.inode), h, ⟨hfound, rfl⟩, ?_⟩
    rw [perform_openFound, ← hnumber]

theorem perform_socketPair (h : Host) :
    socketPair.perform h =
      (.ok (h.freshNumber, (h.addDescriptor .socket).freshNumber),
        (h.addDescriptor .socket).addDescriptor .socket) :=
  rfl

/-- A change either is made as a whole, or the host stays as it is. -/
theorem perform_change (wrap : IoError → Error) (f : Host → Except IoError Host) (h : Host) :
    (change wrap f).perform h =
      match f h with
      | .ok changed => (.ok (), changed)
      | .error cause => (.error (wrap cause), h) := by
  simp only [change, check, bind_assoc, perform_observe_bind]
  cases f h with
  | ok changed => rfl
  | error cause => rfl

/-- A `do` block that goes on only if there is no reason to refuse. -/
theorem perform_refuse_ok {p : Prop} [Decidable p] {e : Error} {f : Unit → Action β} {b : β} :
    (if p then (fail e : Action Unit) >>= f else f ()).perform h = (.ok b, h') ↔
      ¬ p ∧ (f ()).perform h = (.ok b, h') := by
  by_cases hp : p
  · simp [hp]
  · simp [hp]

/-- A `do` block with a step that is made only under a condition. -/
theorem perform_when_ok {p : Prop} [Decidable p] {a : Action Unit} {f : Unit → Action β} {b : β} :
    (if p then a >>= f else f ()).perform h = (.ok b, h') ↔
      ∃ h₁, (if p then a else pure ()).perform h = (.ok (), h₁) ∧
        (f ()).perform h₁ = (.ok b, h') := by
  by_cases hp : p
  · simp only [hp, if_true, perform_bind_ok]
    exact ⟨fun ⟨_, h₁, ha, hf⟩ => ⟨h₁, ha, hf⟩, fun ⟨h₁, ha, hf⟩ => ⟨(), h₁, ha, hf⟩⟩
  · simp [hp]

/-- A `do` block that goes on from one of two actions. -/
theorem perform_either_ok {p : Prop} [Decidable p] {a₁ a₂ : Action α} {f : α → Action β} {b : β} :
    (if p then a₁ >>= f else a₂ >>= f).perform h = (.ok b, h') ↔
      ∃ x h₁, (if p then a₁ else a₂).perform h = (.ok x, h₁) ∧
        (f x).perform h₁ = (.ok b, h') := by
  by_cases hp : p
  · simp only [hp, if_true, perform_bind_ok]
  · simp only [hp, if_false, perform_bind_ok]

/-- Trying an action and, where it fails, going on from its error. -/
theorem perform_tryCatch (a : Action α) (f : Error → Action α) (h : Host) :
    (tryCatch a f).perform h =
      match a.perform h with
      | (.ok x, h) => (.ok x, h)
      | (.error e, h) => (f e).perform h := by
  simp only [perform, ExceptT.run_tryCatch, StateT.run_bind]
  generalize (ExceptT.run a).run h = r
  obtain ⟨x | x, h'⟩ := r <;> rfl

/-- Asking for the outcome of an action performs it and never fails. -/
theorem perform_outcome_ok {a : Action α} {x : Except Error α} :
    (outcome a).perform h = (.ok x, h') ↔ a.perform h = (x, h') := by
  simp only [outcome, perform_tryCatch, perform_bind]
  generalize a.perform h = r
  obtain ⟨y | y, h₁⟩ := r <;> simp [perform_pure]

theorem exists_perform_ok {a : Action α} {f : α → β} {b : β}
    (hrun : (a.perform h).1.toOption.map f = some b) :
    ∃ x h', a.perform h = (.ok x, h') ∧ f x = b := by
  obtain ⟨x, hx, hf⟩ := Error.exists_ok_of_map hrun
  exact ⟨x, (a.perform h).2, by rw [← hx], hf⟩

/-! ## Failed runs -/

@[simp] theorem perform_pure_error {a : α} {e : Error} :
    (pure a : Action α).perform h = (.error e, h') ↔ False := by
  simp [perform_pure]

@[simp] theorem perform_fail_error {e e' : Error} :
    (fail e : Action α).perform h = (.error e', h') ↔ e = e' ∧ h = h' := by
  simp [perform_fail]

@[simp] theorem perform_ofExcept_error {r : Except Error α} {e : Error} :
    (ofExcept r).perform h = (.error e, h') ↔ r = .error e ∧ h = h' := by
  simp [perform_ofExcept]

/-- One action after another fails if either of them does. -/
theorem perform_bind_error {a : Action α} {f : α → Action β} {e : Error} :
    (a >>= f).perform h = (.error e, h') ↔
      a.perform h = (.error e, h') ∨
        ∃ x h₁, a.perform h = (.ok x, h₁) ∧ (f x).perform h₁ = (.error e, h') := by
  rw [perform_bind]
  cases hfirst : a.perform h with
  | mk r h₁ =>
      cases r with
      | error e₁ => simp
      | ok x =>
          constructor
          · intro hrest
            exact Or.inr ⟨x, h₁, rfl, hrest⟩
          · rintro (hfail | ⟨_, _, hsame, hrest⟩)
            · cases hfail
            · cases hsame
              exact hrest

theorem exists_perform_error {a : Action α} {f : Host → β} {b : β}
    (hrun : (a.perform h).1.isOk = false ∧ f (a.perform h).2 = b) :
    ∃ e h', a.perform h = (.error e, h') ∧ f h' = b := by
  obtain ⟨hfail, hf⟩ := hrun
  cases hrun : a.perform h with
  | mk x h' =>
      rw [hrun] at hfail hf
      cases x with
      | ok x => cases hfail
      | error e => exact ⟨e, h', rfl, hf⟩

theorem perform_check_error {wrap : IoError → Error} {f : Host → Except IoError α} {e : Error} :
    (check wrap f).perform h = (.error e, h') ↔
      (∃ cause, f h = .error cause ∧ wrap cause = e) ∧ h = h' := by
  simp only [check, perform_observe_bind]
  cases f h with
  | ok x => simp
  | error cause => simp

/-- Opening a path fails only before a descriptor is added. -/
theorem perform_openFile_error {access : Access} {p : Path} {e : Error} :
    (openFile access p).perform h = (.error e, h') ↔
      (∃ cause, h.opening access p = .error cause ∧ .atPath p cause = e) ∧ h = h' := by
  simp only [openFile, perform_bind_error, perform_check_error, perform_openFound]
  simp

/-! ## What lasts -/

/-- An action that changes nothing but descriptors and what the user was told,
whether it succeeds or fails. -/
def Quiet (a : Action α) : Prop :=
  ∀ h, (a.perform h).2.lasting = h.lasting

theorem quiet_pure (a : α) : Quiet (pure a : Action α) :=
  fun _ => rfl

theorem quiet_fail (e : Error) : Quiet (fail e : Action α) :=
  fun _ => rfl

theorem quiet_observe (f : Host → α) : Quiet (observe f) :=
  fun _ => rfl

theorem quiet_ofExcept (r : Except Error α) : Quiet (ofExcept r) := by
  intro h
  rw [perform_ofExcept]

theorem quiet_notify (n : Notice) : Quiet (notify n) :=
  fun _ => rfl

theorem quiet_notifyAll (ns : List Notice) : Quiet (notifyAll ns) := by
  intro h
  rw [perform_notifyAll]
  rfl

theorem quiet_bind {a : Action α} {f : α → Action β} (ha : Quiet a) (hf : ∀ x, Quiet (f x)) :
    Quiet (a >>= f) := by
  intro h
  have hfirst := ha h
  rw [perform_bind]
  split
  · next x h₁ hx =>
    rw [hx] at hfirst
    exact (hf x h₁).trans hfirst
  · next e h₁ hx =>
    rw [hx] at hfirst
    exact hfirst

theorem quiet_ite {p : Prop} [Decidable p] {a b : Action α} (ha : Quiet a) (hb : Quiet b) :
    Quiet (if p then a else b) := by
  split
  · exact ha
  · exact hb

theorem quiet_when {p : Prop} [Decidable p] {a : Action Unit} {f : Unit → Action β}
    (ha : Quiet a) (hf : Quiet (f ())) : Quiet (if p then a >>= f else f ()) :=
  quiet_ite (quiet_bind ha fun _ => hf) hf

theorem quiet_refuse {p : Prop} [Decidable p] {e : Error} {f : Unit → Action β}
    (hf : Quiet (f ())) : Quiet (if p then (fail e : Action Unit) >>= f else f ()) :=
  quiet_when (quiet_fail e) hf

theorem quiet_either {p : Prop} [Decidable p] {a₁ a₂ : Action α} {f : α → Action β}
    (h₁ : Quiet a₁) (h₂ : Quiet a₂) (hf : ∀ x, Quiet (f x)) :
    Quiet (if p then a₁ >>= f else a₂ >>= f) :=
  quiet_ite (quiet_bind h₁ hf) (quiet_bind h₂ hf)

theorem quiet_tryCatch {a : Action α} {f : Error → Action α} (ha : Quiet a)
    (hf : ∀ e, Quiet (f e)) : Quiet (tryCatch a f) := by
  intro h
  have hfirst := ha h
  rw [perform_tryCatch]
  split
  · next x h₁ hx =>
    rw [hx] at hfirst
    exact hfirst
  · next e h₁ hx =>
    rw [hx] at hfirst
    exact (hf e h₁).trans hfirst

theorem quiet_outcome {a : Action α} (ha : Quiet a) : Quiet (outcome a) :=
  quiet_tryCatch (quiet_bind ha fun _ => quiet_pure _) fun _ => quiet_pure _

theorem quiet_check (wrap : IoError → Error) (f : Host → Except IoError α) :
    Quiet (check wrap f) := by
  refine quiet_bind (quiet_observe f) fun r => ?_
  cases r with
  | ok a => exact quiet_pure a
  | error cause => exact quiet_fail _

theorem quiet_newDescriptor (target : Target) : Quiet (newDescriptor target) :=
  fun _ => rfl

theorem quiet_openFound (found : Place × Inode) : Quiet (openFound found) :=
  quiet_bind (quiet_newDescriptor _) fun _ => quiet_pure _

theorem quiet_openFile (access : Access) (p : Path) : Quiet (openFile access p) :=
  quiet_bind (quiet_check _ _) quiet_openFound

theorem quiet_socketPair : Quiet socketPair :=
  quiet_bind (quiet_newDescriptor _) fun _ =>
    quiet_bind (quiet_newDescriptor _) fun _ => quiet_pure _

/-- What a quiet action leaves when it is run to an end that is known. -/
theorem Quiet.lasting_eq {a : Action α} (ha : Quiet a) {r : Except Error α}
    (hrun : a.perform h = (r, h')) : h'.lasting = h.lasting := by
  have hlast := ha h
  rwa [hrun] at hlast

end Action
end ContainerLaunch
