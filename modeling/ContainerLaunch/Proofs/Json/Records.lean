import ContainerLaunch.Json.Codec
import ContainerLaunch.Proofs.Json.Values
import Mathlib.Data.List.Nodup
/-!
# Records are read back

A codec is lossless if each value is written as something that a text can hold and is
read as what it was.  What a record is written as is read field by field, in the order
of its schema, so that a record comes back if the codecs of its fields are lossless;
where one is not, the equation still says what comes back instead.
-/

namespace ContainerLaunch

/-! ## Sorted maps -/

namespace SortedMap

variable {κ α : Type} [StrictOrder κ]

theorem entries_foldl_insert {m : SortedMap κ α} {entries : List (κ × α)}
    (horder : (m.entries ++ entries).Pairwise fun a b => a.1 < b.1) :
    (entries.foldl (fun m e => m.insert e.1 e.2) m).entries = m.entries ++ entries := by
  induction entries generalizing m with
  | nil => simp
  | cons entry rest ih =>
      have habove : ∀ e ∈ m.entries, e.1 < entry.1 := fun e he =>
        (List.pairwise_append.mp horder).2.2 e he entry List.mem_cons_self
      have hinsert : (m.insert entry.1 entry.2).entries = m.entries ++ [entry] :=
        insertEntry_of_above habove
      have hsplit : m.entries ++ entry :: rest = (m.entries ++ [entry]) ++ rest := by simp
      rw [hsplit, ← hinsert] at horder ⊢
      exact ih horder

theorem ofList_entries (m : SortedMap κ α) : ofList m.entries = m :=
  ext (entries_foldl_insert (by simpa [empty] using m.increasing))

end SortedMap

namespace Json

/-! ## Codecs -/

/-- A codec whose values come back from a text.  None of them is written as what a
missing value is written as. -/
class Codec.Lossless {α : Type} (c : Codec α) : Prop where
  faithful : c.Faithful
  written : ∀ a, (c.write a).Written
  ne_null : ∀ a, c.write a ≠ .null

namespace Codec

variable {α β : Type}

/-- A number of 32 or 64 bits is in range. -/
theorem written_nat {n : Nat} (hn : n < UInt64.size) : (Json.nat n).Written :=
  .number ⟨Int.le_trans (by decide) (Int.natCast_nonneg n), Int.ofNat_lt.mpr hn⟩

instance : flag.Lossless := ⟨flag_faithful, fun b => .bool b, by rintro b ⟨⟩⟩

instance : text.Lossless := ⟨text_faithful, fun s => .string s, by rintro s ⟨⟩⟩

instance : path.Lossless := ⟨path_faithful, fun p => .string p.text, by rintro p ⟨⟩⟩

instance : u32.Lossless :=
  ⟨u32_faithful, fun n => written_nat (Nat.lt_trans n.toNat_lt (by decide)), by rintro n ⟨⟩⟩

instance : i32.Lossless where
  faithful := i32_faithful
  written n := by
    have hlow := n.minValue_le_toInt
    have hhigh := n.toInt_le
    exact .number ⟨Int.le_trans (by decide) hlow, Int.lt_of_le_of_lt hhigh (by decide)⟩
  ne_null := by rintro n ⟨⟩

instance {item : Codec α} [hitem : item.Lossless] : (list item).Lossless where
  faithful := list_faithful hitem.faithful
  written xs := by
    refine .array fun j hj => ?_
    obtain ⟨a, -, rfl⟩ := List.mem_map.mp hj
    exact hitem.written a
  ne_null := by rintro xs ⟨⟩

instance {first : Codec α} {second : Codec β} [hfirst : first.Lossless]
    [hsecond : second.Lossless] : (pair first second).Lossless where
  faithful := pair_faithful hfirst.faithful hsecond.faithful
  written p := by
    refine .array fun j hj => ?_
    rcases List.mem_pair.mp hj with rfl | rfl
    · exact hfirst.written p.1
    · exact hsecond.written p.2
  ne_null := by rintro p ⟨⟩

instance {value : Codec α} [hvalue : value.Lossless] : (dictionary value).Lossless where
  faithful m := by
    have hentries : (m.entries.map fun e => (e.1, value.write e.2)).mapM
        (fun f => (value.read f.2).map fun v => (f.1, v)) = some m.entries :=
      mapM_map_eq_some (fun e => by simp [hvalue.faithful e.2]) m.entries
    simp only [dictionary, hentries, Option.bind_eq_bind, Option.bind_some,
      SortedMap.ofList_entries]
  written m := by
    refine .object fun f hf => ?_
    obtain ⟨e, -, rfl⟩ := List.mem_map.mp hf
    exact hvalue.written e.2
  ne_null := by rintro m ⟨⟩

/-- A choice is lossless if each alternative is the first with its name. -/
theorem choice_lossless {name : α → String} {all : List α} {further : List (String × α)}
    (hfirst : ∀ a, all.find? (fun b => name b == name a) = some a) :
    (choice name all further).Lossless where
  faithful a := by simp [choice, hfirst a]
  written a := .string (name a)
  ne_null := by rintro a ⟨⟩

theorem read_nullable_write {c : Codec α} [hc : c.Lossless] (a : α) :
    c.nullable.read (c.write a) = some (some a) := by
  have hread := hc.faithful a
  have hnull := hc.ne_null a
  cases hwrite : c.write a <;> simp_all [nullable]

theorem isValue_of_nullable_read {room : Nat} {j k : Json} (hj : j.Found)
    (hread : (anything room).nullable.read j = some (some k)) : k.IsValue := by
  simp only [nullable] at hread
  split at hread
  · cases hread
  · obtain ⟨_, hsettled, ⟨⟩⟩ := Option.map_eq_some_iff.mp hread
    exact hj.isValue_of_settled hsettled

end Codec

/-! ## Fields -/

variable {σ α : Type} {key : String} {c : Codec α} {x y z : σ} {rest : List (FieldOf Json σ)}

namespace FieldOf

/-- What is written for a field, a text can hold. -/
def Holds (f : FieldOf Json σ) (x : σ) : Prop :=
  ∀ j, f.write x = some j → j.Written

theorem holds_plain_iff {get : σ → α} {put : α → σ → σ} :
    (plain key c get put).Holds x ↔ (c.write (get x)).Written := by
  simp [Holds, plain]

theorem holds_plain [hc : c.Lossless] {get : σ → α} {put : α → σ → σ} :
    (plain key c get put).Holds x :=
  holds_plain_iff.mpr (hc.written _)

theorem holds_needed [hc : c.Lossless] {get : σ → α} {put : α → σ → σ} :
    (needed key c get put).Holds x := by
  simp [Holds, needed, plain, hc.written]

theorem holds_optional_iff {get : σ → Option α} {put : Option α → σ → σ} :
    (optional key c get put).Holds x ↔ ∀ a, get x = some a → (c.write a).Written := by
  simp [Holds, optional]

theorem holds_optional [hc : c.Lossless] {get : σ → Option α} {put : Option α → σ → σ} :
    (optional key c get put).Holds x :=
  holds_optional_iff.mpr fun a _ => hc.written a

/-- What is read into the record, one field after the other, of the fields as they are
written of `x`. -/
def copyAll (x : σ) : List (FieldOf Json σ) → σ → Option σ
  | [], y => some y
  | f :: rest, y =>
    match f.write x with
    | some j => f.read j y >>= copyAll x rest
    | none => if f.required then none else copyAll x rest y

theorem copyAll_plain_eq {get : σ → α} {put : α → σ → σ} :
    copyAll x (plain key c get put :: rest) y =
      (c.read (c.write (get x))).bind fun a => copyAll x rest (put a y) := by
  cases hread : c.read (c.write (get x)) <;> simp [copyAll, plain, hread]

theorem copyAll_plain [hc : c.Lossless] {get : σ → α} {put : α → σ → σ} :
    copyAll x (plain key c get put :: rest) y = copyAll x rest (put (get x) y) := by
  rw [copyAll_plain_eq, hc.faithful, Option.bind_some]

theorem copyAll_needed [hc : c.Lossless] {get : σ → α} {put : α → σ → σ} :
    copyAll x (needed key c get put :: rest) y = copyAll x rest (put (get x) y) := by
  simp [copyAll, needed, plain, hc.faithful (get x)]

/-- An optional field that is left out stays as it is in the record that is read into. -/
theorem copyAll_optional [hc : c.Lossless] {get : σ → Option α} {put : Option α → σ → σ}
    (hskip : put none y = y) :
    copyAll x (optional key c get put :: rest) y = copyAll x rest (put (get x) y) := by
  cases hget : get x with
  | none => simp [copyAll, optional, hget, hskip]
  | some a => simp [copyAll, optional, hget, Codec.read_nullable_write]

/-- An optional field for a value of unknown shape, as the last one: a `null` is read as no
value, and a value that is nested too deep is not read. -/
theorem copyAll_anything {room : Nat} {get : σ → Option Json} {put : Option Json → σ → σ}
    (hvalue : ∀ j, get x = some j → j.IsValue) :
    copyAll x [optional key (.anything room) get put] y =
      match get x with
      | none => some y
      | some .null => some (put none y)
      | some j => if j.depth ≤ room then some (put (some j) y) else none := by
  cases hget : get x with
  | none => simp [copyAll, optional, hget]
  | some j =>
      have hnormal := (hvalue j hget).normal
      cases j with
      | null => simp [copyAll, optional, hget, Codec.nullable, Codec.anything]
      | bool | number | string | array | object | unreadable =>
          simp only [copyAll, optional, hget, Option.map_some, Codec.nullable, Codec.anything,
            settled, hnormal]
          split <;> rfl

/-- What is read for a field from a value that was found in a text keeps a property of the
record. -/
def Keeps (f : FieldOf Json σ) (P : σ → Prop) : Prop :=
  ∀ j x y, j.Found → P x → f.read j x = some y → P y

variable {P : σ → Prop}

theorem keeps_plain_of {get : σ → α} {put : α → σ → σ}
    (hput : ∀ j a x, j.Found → c.read j = some a → P x → P (put a x)) :
    (plain key c get put).Keeps P := by
  intro j x y hj hx hread
  obtain ⟨a, ha, rfl⟩ := Option.map_eq_some_iff.mp hread
  exact hput j a x hj ha hx

theorem keeps_plain {get : σ → α} {put : α → σ → σ} (hput : ∀ a x, P x → P (put a x)) :
    (plain key c get put).Keeps P :=
  keeps_plain_of fun _ a x _ _ hx => hput a x hx

theorem keeps_needed {get : σ → α} {put : α → σ → σ} (hput : ∀ a x, P x → P (put a x)) :
    (needed key c get put).Keeps P := by
  intro j x y _ hx hread
  obtain ⟨a, -, rfl⟩ := Option.map_eq_some_iff.mp hread
  exact hput a x hx

theorem keeps_optional_of {get : σ → Option α} {put : Option α → σ → σ}
    (hput : ∀ j a x, j.Found → c.nullable.read j = some a → P x → P (put a x)) :
    (optional key c get put).Keeps P := by
  intro j x y hj hx hread
  obtain ⟨a, ha, rfl⟩ := Option.map_eq_some_iff.mp hread
  exact hput j a x hj ha hx

theorem keeps_optional {get : σ → Option α} {put : Option α → σ → σ}
    (hput : ∀ a x, P x → P (put a x)) : (optional key c get put).Keeps P :=
  keeps_optional_of fun _ a x _ _ hx => hput a x hx

end FieldOf

/-! ## Records -/

namespace SchemaOf

open FieldOf

variable {s : Schema σ}

/-- What a list of fields is written as. -/
def entriesOf (x : σ) (fs : List (FieldOf Json σ)) : List (String × Json) :=
  fs.filterMap fun f => (f.write x).map fun j => (f.key, j)

theorem entriesOf_cons (f : FieldOf Json σ) (fs : List (FieldOf Json σ)) :
    entriesOf x (f :: fs) =
      match f.write x with
      | some j => (f.key, j) :: entriesOf x fs
      | none => entriesOf x fs := by
  cases hwrite : f.write x <;> simp [entriesOf, hwrite]

theorem mem_keys_of_mem_entriesOf {fs : List (FieldOf Json σ)} {k : String}
    (hk : k ∈ (entriesOf x fs).map Prod.fst) : k ∈ fs.map FieldOf.key := by
  simp only [entriesOf, List.mem_map, List.mem_filterMap, Option.map_eq_some_iff] at hk
  obtain ⟨_, ⟨f, hf, j, -, rfl⟩, rfl⟩ := hk
  exact List.mem_map_of_mem hf

theorem find_key {f : FieldOf Json σ} (hkeys : (s.fields.map FieldOf.key).Nodup)
    (hf : f ∈ s.fields) : s.find f.key = some f := by
  obtain ⟨before, after, hfields⟩ := List.append_of_mem hf
  rw [hfields, List.map_append, List.map_cons] at hkeys
  have hbefore : before.find? (fun g => g.key == f.key) = none := by
    rw [List.find?_eq_none]
    intro g hg hkey
    have hne := (List.nodup_append.mp hkeys).2.2 g.key (List.mem_map_of_mem hg) f.key
      List.mem_cons_self
    exact hne (by simpa using hkey)
  simp [find, hfields, List.find?_append, hbefore]

theorem mem_of_readEntries {entries : List (String × Json)} {seen seen' : List String}
    (hread : s.readEntries seen y entries = some (z, seen')) {k : String} (hk : k ∈ seen') :
    k ∈ seen ∨ k ∈ entries.map Prod.fst := by
  induction entries generalizing seen y with
  | nil =>
      cases hread
      exact .inl hk
  | cons entry more ih =>
      obtain ⟨name, value⟩ := entry
      rw [readEntries] at hread
      rw [List.map_cons, List.mem_cons]
      split at hread
      · exact (ih hread).imp_right .inr
      · split at hread
        · cases hread
        · split at hread
          · rcases ih hread with hseen | hmore
            · exact (List.mem_cons.mp hseen).symm.imp_right .inl
            · exact .inr (.inr hmore)
          · cases hread

/-- The fields `fs` are read after the fields before them, whose needed ones were seen.
The keys are distinct, so each entry is read as the field that wrote it. -/
theorem readEntries_entriesOf (hkeys : (s.fields.map FieldOf.key).Nodup)
    {before fs : List (FieldOf Json σ)} (hfields : s.fields = before ++ fs) {seen : List String}
    (hseen : ∀ k ∈ seen, k ∈ before.map FieldOf.key)
    (hneeded : ∀ f ∈ before, f.required = true → f.key ∈ seen) :
    (s.readEntries seen y (entriesOf x fs) >>= fun (z, seen) =>
      if s.fields.all fun f => !f.required || seen.contains f.key then some z else none) =
      copyAll x fs y := by
  induction fs generalizing before seen y with
  | nil =>
      have hall : (s.fields.all fun f => !f.required || seen.contains f.key) = true := by
        rw [hfields, List.append_nil, List.all_eq_true]
        intro f hf
        cases hrequired : f.required with
        | false => rfl
        | true => simpa using hneeded f hf hrequired
      simp only [entriesOf, List.filterMap_nil, readEntries, Option.bind_eq_bind,
        Option.bind_some, hall, if_true, copyAll]
  | cons f rest ih =>
      have hmem : f ∈ s.fields := by
        rw [hfields]
        exact List.mem_append_right _ List.mem_cons_self
      have hlater : s.fields = (before ++ [f]) ++ rest := by simp [hfields]
      have hdistinct := hkeys
      rw [hfields, List.map_append, List.map_cons] at hdistinct
      have hnew : f.key ∉ seen := fun hold =>
        (List.nodup_append.mp hdistinct).2.2 f.key (hseen _ hold) f.key List.mem_cons_self rfl
      rw [entriesOf_cons, copyAll]
      cases hwrite : f.write x with
      | some j =>
          have hcontains : seen.contains f.key = false := by simpa using hnew
          simp only [readEntries, find_key hkeys hmem, hcontains, Bool.false_eq_true, if_false]
          cases hread : f.read j y with
          | none => rfl
          | some y' =>
              refine ih hlater ?_ ?_
              · intro k hk
                rcases List.mem_cons.mp hk with rfl | hk
                · simp
                · simp [hseen k hk]
              · intro g hg hrequired
                rcases List.mem_append.mp hg with hg | hg
                · exact List.mem_cons_of_mem _ (hneeded g hg hrequired)
                · rw [List.mem_singleton.mp hg]
                  exact List.mem_cons_self
      | none =>
          cases hrequired : f.required with
          | false =>
              refine ih hlater (fun k hk => by simp [hseen k hk]) ?_
              intro g hg hneed
              rcases List.mem_append.mp hg with hg | hg
              · exact hneeded g hg hneed
              · rw [List.mem_singleton.mp hg, hrequired] at hneed
                cases hneed
          | true =>
              have hafter : f.key ∉ rest.map FieldOf.key :=
                (List.nodup_cons.mp (List.nodup_append.mp hdistinct).2.1).1
              cases hread : s.readEntries seen y (entriesOf x rest) with
              | none => rfl
              | some out =>
                  obtain ⟨z, seen'⟩ := out
                  have hmissing : f.key ∉ seen' := fun hk =>
                    (mem_of_readEntries hread hk).elim hnew
                      fun hk => hafter (mem_keys_of_mem_entriesOf hk)
                  have hall : (s.fields.all fun g => !g.required || seen'.contains g.key) = false := by
                    rw [List.all_eq_false]
                    exact ⟨f, hmem, by simp [hrequired, hmissing]⟩
                  simp only [Option.bind_eq_bind, Option.bind_some, hall, Bool.false_eq_true,
                    if_false, if_true]

/-! ## What reading keeps -/

section Keeps

variable {P : σ → Prop}

theorem readEntries_keeps (hfields : ∀ f ∈ s.fields, f.Keeps P)
    {entries : List (String × Json)} (hfound : ∀ entry ∈ entries, entry.2.Found)
    {seen seen' : List String} (hy : P y) (hread : s.readEntries seen y entries = some (z, seen')) :
    P z := by
  induction entries generalizing seen y with
  | nil =>
      cases hread
      exact hy
  | cons entry more ih =>
      obtain ⟨name, value⟩ := entry
      have hmore := fun e he => hfound e (List.mem_cons_of_mem _ he)
      rw [readEntries] at hread
      split at hread
      · exact ih hmore hy hread
      · next field hfind =>
        split at hread
        · cases hread
        · split at hread
          · next y' hvalue =>
            have hfield := hfields field (List.mem_of_find?_eq_some hfind)
            exact ih hmore (hfield value y y' (hfound _ List.mem_cons_self) hy hvalue) hread
          · cases hread

theorem readItems_keeps {fs : List (FieldOf Json σ)} (hfields : ∀ f ∈ fs, f.Keeps P)
    {items : List Json} (hfound : ∀ item ∈ items, item.Found) (hy : P y)
    (hread : readItems y fs items = some z) : P z := by
  induction fs generalizing items y with
  | nil =>
      cases items with
      | nil =>
          cases hread
          exact hy
      | cons item more => cases hread
  | cons f rest ih =>
      cases items with
      | nil =>
          simp only [readItems, Option.ite_none_left_eq_some, Option.some.injEq] at hread
          exact hread.2 ▸ hy
      | cons item more =>
          rw [readItems] at hread
          split at hread
          · next y' hvalue =>
            exact ih (fun g hg => hfields g (List.mem_cons_of_mem _ hg))
              (fun j hj => hfound j (List.mem_cons_of_mem _ hj))
              (hfields f List.mem_cons_self item y y' (hfound item List.mem_cons_self) hy hvalue)
              hread
          · cases hread

end Keeps

end SchemaOf

namespace Schema

open FieldOf

variable {s : Schema σ}

/-- What is read of a record as it is written: its fields one after the other. -/
theorem read_write (hkeys : (s.fields.map FieldOf.key).Nodup) (x : σ) :
    s.read (s.write x) = copyAll x s.fields s.initial := by
  have hstart : s.fields = [] ++ s.fields := rfl
  exact SchemaOf.readEntries_entriesOf hkeys hstart (by simp) (by simp)

theorem written_write (hholds : ∀ f ∈ s.fields, f.Holds x) : (s.write x).Written := by
  refine .object fun entry hentry => ?_
  simp only [List.mem_filterMap, Option.map_eq_some_iff] at hentry
  obtain ⟨f, hf, j, hwrite, rfl⟩ := hentry
  exact hholds f hf j hwrite

/-- A record whose fields come back comes back. -/
theorem lossless (hkeys : (s.fields.map FieldOf.key).Nodup)
    (hcopy : ∀ x, copyAll x s.fields s.initial = some x)
    (hholds : ∀ x, ∀ f ∈ s.fields, f.Holds x) : s.codec.Lossless where
  faithful x := (read_write hkeys x).trans (hcopy x)
  written x := written_write (hholds x)
  ne_null := by rintro x ⟨⟩

/-- A property of the record that reading starts from, which every field keeps, is one of
all records that are read from what was found in a text. -/
theorem read_keeps {P : σ → Prop} (hinitial : P s.initial) (hfields : ∀ f ∈ s.fields, f.Keeps P)
    {j : Json} (hj : j.Found) (hread : s.read j = some x) : P x := by
  cases hj with
  | array hitems => exact SchemaOf.readItems_keeps hfields hitems hinitial hread
  | object hentries =>
      simp only [read, SchemaOf.readObject, Option.bind_eq_bind, Option.bind_eq_some_iff,
        Prod.exists, Option.ite_none_right_eq_some, Option.some.injEq] at hread
      obtain ⟨x', seen, hread, -, rfl⟩ := hread
      exact SchemaOf.readEntries_keeps hfields hentries hinitial hread
  | null | bool | number | string | unreadable => cases hread

end Schema
end Json
end ContainerLaunch
