import ContainerLaunch.Json.Reader
import ContainerLaunch.SortedMap
/-!
# Values that texts hold

A text can hold a value and give it back if nothing in it is unreadable and its numbers
are in the range in which numbers are told apart.  A value of unknown shape that was read
from a text is moreover in order, and reading it again leaves it as it is.
-/

namespace ContainerLaunch.Json

/-- A number that is read as it is: an integer of 64 bits, or the decimal for a double. -/
def Number.InRange : Number → Prop
  | .int n => Int64.minValue.toInt ≤ n ∧ n < UInt64.size
  | .real _ size => size.Trimmed ∧ Decimal.rounded size.digits size.exponent = some size

/-- A value that a text can hold. -/
inductive Written : Json → Prop
  | null : Written .null
  | bool (b : Bool) : Written (.bool b)
  | number {n : Number} (hrange : n.InRange) : Written (.number n)
  | string (s : String) : Written (.string s)
  | array {items : List Json} (hitems : ∀ item ∈ items, Written item) : Written (.array items)
  | object {fields : List (String × Json)} (hfields : ∀ field ∈ fields, Written field.2) :
      Written (.object fields)

/-- A value as it is found in a text: its numbers are in range, and parts of it may be
unreadable. -/
inductive Found : Json → Prop
  | null : Found .null
  | bool (b : Bool) : Found (.bool b)
  | number {n : Number} (hrange : n.InRange) : Found (.number n)
  | string (s : String) : Found (.string s)
  | array {items : List Json} (hitems : ∀ item ∈ items, Found item) : Found (.array items)
  | object {fields : List (String × Json)} (hfields : ∀ field ∈ fields, Found field.2) :
      Found (.object fields)
  | unreadable : Found .unreadable

/-- A value of unknown shape as it is read: a text can hold it, and it is in order. -/
structure IsValue (j : Json) : Prop where
  written : j.Written
  normal : j.normal? = some j

/-- Items that are written one by one are read one by one. -/
theorem mapM_map_eq_some {α β : Type} {write : α → β} {read : β → Option α}
    (hread : ∀ a, read (write a) = some a) (xs : List α) : (xs.map write).mapM read = some xs := by
  induction xs with
  | nil => rfl
  | cons x rest ih =>
      rw [List.map_cons, List.mapM_cons, hread, ih]
      rfl

variable {items ks : List Json} {fields read out : List (String × Json)}

/-! ## Items in order -/

theorem normalItems?_self (hnormal : ∀ k ∈ ks, k.normal? = some k) :
    normalItems? ks = some ks := by
  induction ks with
  | nil => rfl
  | cons k rest ih =>
      have hrest := ih fun j hj => hnormal j (List.mem_cons_of_mem _ hj)
      simp [normalItems?, hnormal k List.mem_cons_self, hrest]

theorem isValue_of_normalItems? (hitems : ∀ item ∈ items, ∀ k, item.normal? = some k → k.IsValue)
    (hnormal : normalItems? items = some ks) : ∀ k ∈ ks, k.IsValue := by
  induction items generalizing ks with
  | nil =>
      cases hnormal
      simp
  | cons item rest ih =>
      simp only [normalItems?, Option.bind_eq_bind, Option.bind_eq_some_iff,
        Option.some.injEq] at hnormal
      obtain ⟨first, hfirst, more, hmore, rfl⟩ := hnormal
      intro k hk
      rcases List.mem_cons.mp hk with rfl | hk
      · exact hitems item List.mem_cons_self k hfirst
      · exact ih (fun j hj => hitems j (List.mem_cons_of_mem _ hj)) hmore k hk

/-! ## Fields in order -/

/-- Fields whose keys are in order and occur once. -/
def InOrder (fields : List (String × Json)) : Prop :=
  fields.Pairwise fun a b => a.1 < b.1

theorem insertField_eq (key : String) (value : Json) :
    insertField key value fields = SortedMap.insertEntry key value fields := by
  induction fields with
  | nil => rfl
  | cons field rest ih =>
      obtain ⟨k, v⟩ := field
      simp only [insertField, SortedMap.insertEntry, ih]

/-- Fields in order are put in order one after the other at the end. -/
theorem normalFields?_self (horder : InOrder (read ++ fields))
    (hnormal : ∀ field ∈ fields, field.2.normal? = some field.2) :
    normalFields? read fields = some (read ++ fields) := by
  induction fields generalizing read with
  | nil => simp [normalFields?]
  | cons field rest ih =>
      obtain ⟨key, value⟩ := field
      have habove : ∀ e ∈ read, e.1 < key := fun e he =>
        (List.pairwise_append.mp horder).2.2 e he _ List.mem_cons_self
      have hsplit : read ++ (key, value) :: rest = (read ++ [(key, value)]) ++ rest := by simp
      rw [hsplit] at horder ⊢
      rw [normalFields?, hnormal _ List.mem_cons_self, Option.bind_eq_bind, Option.bind_some,
        insertField_eq, SortedMap.insertEntry_of_above habove]
      exact ih horder fun f hf => hnormal f (List.mem_cons_of_mem _ hf)

theorem isValue_of_normalFields?
    (hfields : ∀ field ∈ fields, ∀ k, field.2.normal? = some k → k.IsValue)
    (horder : InOrder read) (hread : ∀ field ∈ read, field.2.IsValue)
    (hnormal : normalFields? read fields = some out) :
    InOrder out ∧ ∀ field ∈ out, field.2.IsValue := by
  induction fields generalizing read with
  | nil =>
      cases hnormal
      exact ⟨horder, hread⟩
  | cons field rest ih =>
      obtain ⟨key, value⟩ := field
      simp only [normalFields?, Option.bind_eq_bind, Option.bind_eq_some_iff] at hnormal
      obtain ⟨first, hfirst, hrest⟩ := hnormal
      rw [insertField_eq] at hrest
      refine ih (fun f hf => hfields f (List.mem_cons_of_mem _ hf))
        (SortedMap.insertEntry_increasing horder) ?_ hrest
      intro f hf
      rcases SortedMap.mem_insertEntry hf with rfl | hf
      · exact hfields _ List.mem_cons_self first hfirst
      · exact hread f hf

/-! ## Values in order -/

/-- What was found in a text and put in order is a value as it is read. -/
theorem Found.isValue_of_normal? {j k : Json} (hj : j.Found) (hk : j.normal? = some k) :
    k.IsValue := by
  induction hj generalizing k with
  | null =>
      cases hk
      exact ⟨.null, rfl⟩
  | bool b =>
      cases hk
      exact ⟨.bool b, rfl⟩
  | number hrange =>
      cases hk
      exact ⟨.number hrange, rfl⟩
  | string s =>
      cases hk
      exact ⟨.string s, rfl⟩
  | array _ ih =>
      obtain ⟨ks, hks, rfl⟩ := Option.map_eq_some_iff.mp hk
      have hvalues := isValue_of_normalItems? (fun item hitem k => ih item hitem) hks
      refine ⟨.array fun j hj => (hvalues j hj).written, ?_⟩
      rw [normal?, normalItems?_self fun j hj => (hvalues j hj).normal]
      rfl
  | object _ ih =>
      obtain ⟨out, hout, rfl⟩ := Option.map_eq_some_iff.mp hk
      obtain ⟨horder, hvalues⟩ :=
        isValue_of_normalFields? (fun field hfield k => ih field hfield) .nil (by simp) hout
      have hself : normalFields? [] out = some ([] ++ out) :=
        normalFields?_self horder fun f hf => (hvalues f hf).normal
      refine ⟨.object fun f hf => (hvalues f hf).written, ?_⟩
      rw [normal?, hself]
      rfl
  | unreadable => cases hk

theorem Found.isValue_of_settled {j k : Json} (hj : j.Found) {room : Nat}
    (hk : j.settled room = some k) : k.IsValue := by
  unfold settled at hk
  split at hk
  · exact hj.isValue_of_normal? hk
  · cases hk

theorem IsValue.found {j : Json} (hj : j.IsValue) : j.Found := by
  have hwritten := hj.written
  clear hj
  induction hwritten with
  | null => exact .null
  | bool b => exact .bool b
  | number hrange => exact .number hrange
  | string s => exact .string s
  | array _ ih => exact .array ih
  | object _ ih => exact .object ih

/-! ## Values of texts -/

theorem found_realOf (negative : Bool) (digits : Nat) (exponent : Int) :
    (realOf negative digits exponent).Found := by
  unfold realOf
  split
  · next size hsize => exact .number (Decimal.rounded_spec hsize)
  · exact .unreadable

theorem found_integerOf (negative : Bool) (n : Nat) : (integerOf negative n).Found := by
  unfold integerOf
  split
  · split
    · exact found_realOf true n 0
    · next hrange =>
      have hsmall : -(n : Int) < UInt64.size :=
        Int.lt_of_le_of_lt (Int.neg_nonpos_of_nonneg (Int.natCast_nonneg n)) (by decide)
      exact .number ⟨by omega, hsmall⟩
  · split
    · next hrange =>
      have hlow : Int64.minValue.toInt ≤ (n : Int) :=
        Int.le_trans (by decide) (Int.natCast_nonneg n)
      exact .number ⟨hlow, by omega⟩
    · exact found_realOf false n 0

theorem found_of_readUnsigned {negative : Bool} {cs rest : List Char} {j : Json}
    (hread : readUnsigned negative cs = some (j, rest)) : j.Found := by
  simp only [readUnsigned, Option.bind_eq_bind, Option.bind_eq_some_iff, Prod.exists] at hread
  obtain ⟨_, _, -, _, _, -, _, _, -, hj⟩ := hread
  split at hj
  · cases hj
    exact found_integerOf negative _
  · cases hj
    exact found_realOf negative _ _

theorem found_of_readNumber {cs rest : List Char} {j : Json}
    (hread : readNumber cs = some (j, rest)) : j.Found := by
  unfold readNumber at hread
  split at hread <;> exact found_of_readUnsigned hread

theorem found_stringValue (s : Option String) : (stringValue s).Found := by
  cases s with
  | none => exact .unreadable
  | some s => exact .string s

theorem found_objectOf {named : List (Option String × Json)}
    (hfound : ∀ field ∈ named, field.2.Found) : (objectOf named).Found := by
  unfold objectOf
  split
  · next fields hnames =>
    apply Found.object
    induction named generalizing fields with
    | nil =>
        cases hnames
        simp
    | cons field rest ih =>
        simp only [List.mapM_cons, Option.bind_eq_bind, Option.bind_eq_some_iff,
          Option.map_eq_some_iff, Option.pure_def, Option.some.injEq] at hnames
        obtain ⟨_, ⟨key, -, rfl⟩, more, hmore, rfl⟩ := hnames
        intro f hf
        rcases List.mem_cons.mp hf with rfl | hf
        · exact hfound field List.mem_cons_self
        · exact ih (fun g hg => hfound g (List.mem_cons_of_mem _ hg)) more hmore f hf
  · exact .unreadable

/-- Every value on the way is one of a text, by recursion on the budget that values, items
and fields share. -/
theorem found_of_read (fuel : Nat) :
    (∀ cs j rest, readValue fuel cs = some (j, rest) → j.Found) ∧
      (∀ items cs j rest, (∀ item ∈ items, item.Found) →
        readItems fuel items cs = some (j, rest) → j.Found) ∧
      ∀ named cs j rest, (∀ field ∈ named, field.2.Found) →
        readFields fuel named cs = some (j, rest) → j.Found := by
  induction fuel with
  | zero => simp [readValue, readItems, readFields]
  | succ fuel ih =>
      obtain ⟨hvalue, hitems, hfields⟩ := ih
      refine ⟨?_, ?_, ?_⟩
      · intro cs j rest hread
        rw [readValue] at hread
        split at hread
        · cases hread
          exact .null
        · cases hread
          exact .bool true
        · cases hread
          exact .bool false
        · simp only [Option.map_eq_some_iff, Prod.exists, Prod.mk.injEq] at hread
          obtain ⟨s, _, -, rfl, -⟩ := hread
          exact found_stringValue s
        · split at hread
          · cases hread
            exact .array (by simp)
          · exact hitems [] _ j rest (by simp) hread
        · split at hread
          · cases hread
            exact .object (by simp)
          · exact hfields [] _ j rest (by simp) hread
        · exact found_of_readNumber hread
      · intro items cs j rest hfound hread
        simp only [readItems, Option.bind_eq_bind, Option.bind_eq_some_iff, Prod.exists] at hread
        obtain ⟨item, after, hitem, hread⟩ := hread
        have hmore : ∀ i ∈ item :: items, i.Found :=
          List.forall_mem_cons.mpr ⟨hvalue _ _ _ hitem, hfound⟩
        split at hread
        · exact hitems _ _ _ _ hmore hread
        · cases hread
          exact .array fun i hi => hmore i (List.mem_reverse.mp hi)
        · cases hread
      · intro named cs j rest hfound hread
        rw [readFields] at hread
        split at hread
        · simp only [Option.bind_eq_bind, Option.bind_eq_some_iff, Prod.exists] at hread
          obtain ⟨key, after, -, hread⟩ := hread
          split at hread
          · simp only [Option.bind_eq_some_iff, Prod.exists] at hread
            obtain ⟨value, after, hread', hread⟩ := hread
            have hmore : ∀ f ∈ (key, value) :: named, f.2.Found :=
              List.forall_mem_cons.mpr ⟨hvalue _ _ _ hread', hfound⟩
            split at hread
            · exact hfields _ _ _ _ hmore hread
            · cases hread
              exact found_objectOf fun f hf => hmore f (List.mem_reverse.mp hf)
            · cases hread
          · cases hread
        · cases hread

/-- The value of a text is one that is found in a text. -/
theorem found_of_parse {text : String} {j : Json} (hparse : parse text = some j) : j.Found := by
  simp only [parse, ofChars, Option.bind_eq_bind, Option.bind_eq_some_iff, Prod.exists,
    Option.ite_none_right_eq_some, Option.some.injEq] at hparse
  obtain ⟨value, rest, hread, -, rfl⟩ := hparse
  exact (found_of_read _).1 _ _ _ hread

end ContainerLaunch.Json
