import ContainerLaunch.Text.Pieces
/-!
# Words of a text

The words of a text are its maximal runs of characters outside white space.  A text comes
apart into runs at the characters of any class, and an encoding that keeps these and writes
no new ones encodes the runs one by one.  All of this is shown along the first character of
the class, behind which there is a shorter text.
-/

namespace ContainerLaunch.Text

variable {p q : Char → Bool} {cs run : List Char}

/-- The maximal runs of characters outside a class. -/
def runsOf (p : Char → Bool) (cs : List Char) : List (List Char) :=
  (cs.splitOnP p).filter (· ≠ [])

theorem runsOf_nil (p : Char → Bool) : runsOf p [] = [] := by
  simp [runsOf]

theorem runsOf_append_cons {c : Char} (hc : p c = true) (xs ys : List Char) :
    runsOf p (xs ++ c :: ys) = runsOf p xs ++ runsOf p ys := by
  rw [runsOf, List.splitOnP_append_cons xs ys hc, List.filter_append]
  rfl

theorem runsOf_of_forall (hne : cs ≠ []) (hcs : ∀ c ∈ cs, p c = false) : runsOf p cs = [cs] := by
  simp [runsOf, List.splitOnP_eq_singleton hcs, hne]

/-- A text has no character of a class, or it has a first one. -/
theorem separator_induction {motive : List Char → Prop} (p : Char → Bool)
    (plain : ∀ cs, (∀ c ∈ cs, p c = false) → motive cs)
    (separated : ∀ xs c ys, (∀ x ∈ xs, p x = false) → p c = true → motive ys →
      motive (xs ++ c :: ys)) (cs : List Char) : motive cs := by
  induction hlength : cs.length using Nat.strongRecOn generalizing cs with
  | ind n ih =>
      cases hfind : cs.find? p with
      | none => exact plain cs (by simpa using hfind)
      | some c =>
          obtain ⟨hc, xs, ys, rfl, hxs⟩ := List.find?_eq_some_iff_append.mp hfind
          have hshorter : ys.length < n := by
            rw [← hlength, List.length_append, List.length_cons]
            omega
          exact separated xs c ys (by simpa using hxs) hc (ih _ hshorter ys rfl)

theorem eq_of_mem_runsOf (hcs : ∀ c ∈ cs, p c = false) (hrun : run ∈ runsOf p cs) : run = cs := by
  rw [runsOf, List.splitOnP_eq_singleton hcs] at hrun
  exact List.mem_singleton.mp (List.mem_filter.mp hrun).1

/-- A run holds no character of the class. -/
theorem eq_false_of_mem_runsOf (hrun : run ∈ runsOf p cs) : ∀ c ∈ run, p c = false := by
  induction cs using separator_induction p with
  | plain cs hcs => rwa [eq_of_mem_runsOf hcs hrun]
  | separated xs c ys hxs hc ih =>
      rw [runsOf_append_cons hc] at hrun
      rcases List.mem_append.mp hrun with hfirst | hrest
      · rwa [eq_of_mem_runsOf hxs hfirst]
      · exact ih hrest

/-- A text that is not all of the class has a run. -/
theorem runsOf_ne_nil {c : Char} (hmem : c ∈ cs) (hc : p c = false) : runsOf p cs ≠ [] := by
  induction cs using separator_induction p with
  | plain cs hcs =>
      rw [runsOf_of_forall (List.ne_nil_of_mem hmem) hcs]
      exact List.cons_ne_nil _ _
  | separated xs d ys hxs hd ih =>
      rw [runsOf_append_cons hd]
      rcases List.mem_append.mp hmem with hfirst | hrest
      · rw [runsOf_of_forall (List.ne_nil_of_mem hfirst) hxs]
        exact List.cons_ne_nil _ _
      · have hys : c ∈ ys := (List.mem_cons.mp hrest).resolve_left fun hcd => by
          rw [hcd, hd] at hc
          cases hc
        exact List.append_ne_nil_of_right_ne_nil _ (ih hys)

/-! ## Texts put together -/

/-- What was joined with a separator has the runs of its parts. -/
theorem runsOf_intercalate {sep : Char} (hsep : p sep = true) (parts : List (List Char)) :
    runsOf p ([sep].intercalate parts) = parts.flatMap (runsOf p) := by
  induction parts with
  | nil => exact runsOf_nil p
  | cons part rest ih =>
      cases rest with
      | nil => simp
      | cons next more =>
          rw [List.intercalate_cons_cons, List.append_assoc, List.singleton_append,
            runsOf_append_cons hsep, ih]
          rfl

/-- The runs of a text are encoded one by one if the encoding keeps the characters of the
class and writes each other one without them. -/
theorem runsOf_flatMap {f : Char → List Char} (hkeep : ∀ c, q c = true → f c = [c] ∧ p c = true)
    (hother : ∀ c, q c = false → f c ≠ [] ∧ ∀ d ∈ f c, p d = false) (cs : List Char) :
    runsOf p (cs.flatMap f) = (runsOf q cs).map (·.flatMap f) := by
  have hplain : ∀ cs, (∀ c ∈ cs, q c = false) →
      runsOf p (cs.flatMap f) = (runsOf q cs).map (·.flatMap f) := by
    intro cs hcs
    cases cs with
    | nil => simp [runsOf_nil]
    | cons c rest =>
        have hne : (c :: rest).flatMap f ≠ [] := by
          simp [(hother c (hcs c List.mem_cons_self)).1]
        have hcodes : ∀ d ∈ (c :: rest).flatMap f, p d = false := by
          intro d hd
          obtain ⟨x, hx, hdx⟩ := List.mem_flatMap.mp hd
          exact (hother x (hcs x hx)).2 d hdx
        rw [runsOf_of_forall hne hcodes, runsOf_of_forall (List.cons_ne_nil _ _) hcs]
        rfl
  induction cs using separator_induction q with
  | plain cs hcs => exact hplain cs hcs
  | separated xs c ys hxs hc ih =>
      obtain ⟨hcode, hsep⟩ := hkeep c hc
      rw [List.flatMap_append, List.flatMap_cons, hcode, List.singleton_append,
        runsOf_append_cons hsep, runsOf_append_cons hc, List.map_append, hplain xs hxs, ih]

/-! ## Words -/

theorem wordsFrom_append_of_forall {xs : List Char} (hxs : ∀ x ∈ xs, isBlank x = false)
    (word ys : List Char) : wordsFrom word (xs ++ ys) = wordsFrom (word ++ xs) ys := by
  induction xs generalizing word with
  | nil => simp
  | cons x rest ih =>
      have hx : isBlank x = false := hxs x List.mem_cons_self
      simp only [List.cons_append, wordsFrom, hx, Bool.false_eq_true, if_false]
      rw [ih fun y hy => hxs y (List.mem_cons_of_mem _ hy), List.append_assoc,
        List.singleton_append]

theorem wordsFrom_nil_eq (cs : List Char) : wordsFrom [] cs = runsOf isBlank cs := by
  induction cs using separator_induction isBlank with
  | plain cs hcs =>
      have hread := wordsFrom_append_of_forall hcs [] []
      rw [List.append_nil, List.nil_append] at hread
      rw [hread, runsOf, List.splitOnP_eq_singleton hcs]
      cases cs <;> simp [wordsFrom]
  | separated xs c ys hxs hc ih =>
      rw [wordsFrom_append_of_forall hxs, runsOf_append_cons hc, runsOf,
        List.splitOnP_eq_singleton hxs, List.nil_append]
      cases xs <;> simp [wordsFrom, hc, ih]

/-- The words of a text are its runs outside white space. -/
theorem words_ofList (cs : List Char) :
    words (String.ofList cs) = (runsOf isBlank cs).map String.ofList := by
  rw [words, String.toList_ofList, wordsFrom_nil_eq]

end ContainerLaunch.Text
