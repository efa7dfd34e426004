/-!
# Sorted maps

A finite map kept as its list of entries in increasing order of keys.  The order
is part of the type, so a map has one representation and an answer that lists
its entries lists them in order.
-/

namespace ContainerLaunch

/-- A strict total order. -/
class StrictOrder (κ : Type) extends LT κ where
  decideLt : DecidableLT κ
  /-- Nothing is below itself. -/
  irrefl : ∀ a : κ, ¬ a < a
  trans : ∀ {a b c : κ}, a < b → b < c → a < c
  connected : ∀ {a b : κ}, ¬ a < b → ¬ b < a → a = b

instance decidableLT {κ : Type} [StrictOrder κ] : DecidableLT κ := StrictOrder.decideLt

instance : StrictOrder String where
  decideLt := inferInstance
  irrefl := String.lt_irrefl
  trans := String.lt_trans
  connected h₁ h₂ := String.le_antisymm (String.not_lt.1 h₂) (String.not_lt.1 h₁)

instance : StrictOrder UInt32 where
  decideLt := inferInstance
  irrefl := UInt32.lt_irrefl
  trans := UInt32.lt_trans
  connected h₁ h₂ := UInt32.le_antisymm (UInt32.not_lt.1 h₂) (UInt32.not_lt.1 h₁)

/-- Where entries are left out by their keys, the first one of a key is left out or is still the
first one. -/
theorem find?_filter_key {κ α : Type} [BEq κ] [LawfulBEq κ] (entries : List (κ × α))
    (keep : κ → Bool) (key : κ) :
    (entries.filter fun e => keep e.1).find? (fun e => e.1 == key) =
      if keep key then entries.find? (fun e => e.1 == key) else none := by
  rw [List.find?_filter]
  split
  · next hkeep =>
    congr 1
    funext e
    by_cases he : e.1 = key <;> simp [he, hkeep]
  · next hkeep =>
    rw [List.find?_eq_none]
    rintro e - hboth
    obtain ⟨hkept, he⟩ : keep e.1 = true ∧ e.1 = key := by simpa using hboth
    exact hkeep (he ▸ hkept)

/-- A finite map with its entries in increasing order of keys. -/
structure SortedMap (κ α : Type) [StrictOrder κ] where
  entries : List (κ × α)
  increasing : entries.Pairwise fun a b => a.1 < b.1

namespace SortedMap

variable {κ α : Type} [StrictOrder κ]

def empty : SortedMap κ α := ⟨[], .nil⟩

instance : Inhabited (SortedMap κ α) := ⟨empty⟩

instance [BEq κ] [BEq α] : BEq (SortedMap κ α) := ⟨fun m n => m.entries == n.entries⟩

/-- An entry list with an entry put at the place of its key. -/
def insertEntry (key : κ) (value : α) : List (κ × α) → List (κ × α)
  | [] => [(key, value)]
  | (k, v) :: rest =>
    if key < k then (key, value) :: (k, v) :: rest
    else if k < key then (k, v) :: insertEntry key value rest
    else (key, value) :: rest

theorem mem_insertEntry {key : κ} {value : α} {entries : List (κ × α)} {e : κ × α}
    (h : e ∈ insertEntry key value entries) : e = (key, value) ∨ e ∈ entries := by
  induction entries with
  | nil => simpa [insertEntry] using h
  | cons entry rest ih =>
    simp only [insertEntry] at h
    split at h
    · simpa using h
    · split at h
      · rcases List.mem_cons.1 h with rfl | h
        · simp
        · rcases ih h with h | h <;> simp [h]
      · rcases List.mem_cons.1 h with rfl | h <;> simp_all

theorem insertEntry_increasing {key : κ} {value : α} {entries : List (κ × α)}
    (h : entries.Pairwise fun a b => a.1 < b.1) :
    (insertEntry key value entries).Pairwise fun a b => a.1 < b.1 := by
  induction entries with
  | nil => simp [insertEntry]
  | cons entry rest ih =>
    obtain ⟨hhead, htail⟩ := List.pairwise_cons.1 h
    simp only [insertEntry]
    split
    · next hlt =>
      refine List.pairwise_cons.2 ⟨fun e he => ?_, h⟩
      rcases List.mem_cons.1 he with rfl | he
      · exact hlt
      · exact StrictOrder.trans hlt (hhead e he)
    · next hnot =>
      split
      · next hgt =>
        refine List.pairwise_cons.2 ⟨fun e he => ?_, ih htail⟩
        rcases mem_insertEntry he with rfl | he
        · exact hgt
        · exact hhead e he
      · next hngt =>
        have heq : key = entry.1 := StrictOrder.connected hnot hngt
        exact List.pairwise_cons.2 ⟨fun e he => heq ▸ hhead e he, htail⟩

/-- The map with one entry put in or replaced. -/
def insert (m : SortedMap κ α) (key : κ) (value : α) : SortedMap κ α :=
  ⟨insertEntry key value m.entries, insertEntry_increasing m.increasing⟩

/-- The value of the first entry with a key. -/
def get? [DecidableEq κ] (m : SortedMap κ α) (key : κ) : Option α :=
  (m.entries.find? fun e => e.1 = key).map Prod.snd

def contains [DecidableEq κ] (m : SortedMap κ α) (key : κ) : Bool :=
  m.entries.any fun e => e.1 = key

/-- The map of a list of entries, where a later entry replaces an earlier one. -/
def ofList (entries : List (κ × α)) : SortedMap κ α :=
  entries.foldl (fun m e => m.insert e.1 e.2) empty

/-- An entry with a key above all others is put last. -/
theorem insertEntry_of_above {key : κ} {value : α} {entries : List (κ × α)}
    (h : ∀ e ∈ entries, e.1 < key) :
    insertEntry key value entries = entries ++ [(key, value)] := by
  induction entries with
  | nil => rfl
  | cons entry rest ih =>
    have hlt : entry.1 < key := h entry (by simp)
    have hnot : ¬ key < entry.1 := fun hgt =>
      StrictOrder.irrefl key (StrictOrder.trans hgt hlt)
    simp [insertEntry, hnot, hlt, ih fun e he => h e (by simp [he])]

/-- Of a list with an entry put in, that entry is found under its key, and under any other
key what was found before. -/
theorem find?_insertEntry [DecidableEq κ] (key : κ) (value : α) (entries : List (κ × α)) (k : κ) :
    (insertEntry key value entries).find? (fun e => e.1 = k) =
      if key = k then some (key, value) else entries.find? fun e => e.1 = k := by
  induction entries with
  | nil => by_cases hk : key = k <;> simp [insertEntry, hk]
  | cons entry rest ih =>
    rw [insertEntry]
    split
    · by_cases hk : key = k <;> simp [hk]
    · next hnot =>
      split
      · next habove =>
        rw [List.find?_cons, List.find?_cons, ih]
        by_cases hk : key = k
        · have hne : entry.1 ≠ k := fun h => StrictOrder.irrefl k (by rwa [h, hk] at habove)
          simp [hk, hne]
        · simp [hk]
      · next hnotAbove =>
        have hsame : key = entry.1 := StrictOrder.connected hnot hnotAbove
        by_cases hk : key = k <;> simp [hk, ← hsame]

theorem get?_insert [DecidableEq κ] (m : SortedMap κ α) (key : κ) (value : α) (k : κ) :
    (m.insert key value).get? k = if key = k then some value else m.get? k := by
  rw [get?, insert, find?_insertEntry]
  split <;> rfl

theorem contains_eq_isSome_get? [DecidableEq κ] (m : SortedMap κ α) (key : κ) :
    m.contains key = (m.get? key).isSome := by
  rw [contains, get?, Option.isSome_map, List.isSome_find?]

/-- Maps with the same entries are equal. -/
theorem ext {m n : SortedMap κ α} (h : m.entries = n.entries) : m = n := by
  cases m; cases n; simp_all

end SortedMap
end ContainerLaunch
