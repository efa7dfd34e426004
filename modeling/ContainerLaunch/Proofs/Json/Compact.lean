import ContainerLaunch.Proofs.Json.Numbers
/-!
# Compact texts are read back

The compact text of a value is read as the value it writes, if a text can hold it at
all.  Strings come back through their escapes, and arrays and objects item by item; each
value is found whatever follows it, as long as that ends an item or a field.
-/

namespace ContainerLaunch.Json

/-! ## Strings -/

theorem hexUnit_hexDigit {n : Nat} (hn : n < 32) :
    hexUnit '0' '0' (hexDigit (n / 16)) (hexDigit (n % 16)) = some n := by
  have hall : ∀ n < 32, hexUnit '0' '0' (hexDigit (n / 16)) (hexDigit (n % 16)) = some n := by
    decide
  exact hall n hn

theorem stringUnits_plain {c : Char} (hquote : c ≠ '"') (hslash : c ≠ '\\')
    (hplain : ¬ c.toNat < 0x20) (read : List Nat) (rest : List Char) :
    stringUnits read (c :: rest) = stringUnits (c.toNat :: read) rest := by
  rw [stringUnits, if_neg hplain]
  all_goals simp_all

/-- An escaped character is read as the one unit of its number. -/
theorem stringUnits_escape (c : Char) (read : List Nat) (rest : List Char) :
    stringUnits read (escape c ++ rest) = stringUnits (c.toNat :: read) rest := by
  unfold escape
  split
  all_goals try rfl
  next hquote hslash _ _ _ _ _ =>
  split
  · next hcontrol =>
    simp [stringUnits, hexUnit_hexDigit hcontrol]
  · next hplain =>
    exact stringUnits_plain hquote hslash hplain read rest

theorem stringUnits_escaped (cs : List Char) (read : List Nat) (rest : List Char) :
    stringUnits read (cs.flatMap escape ++ '"' :: rest) =
      some (read.reverse ++ cs.map Char.toNat, rest) := by
  induction cs generalizing read with
  | nil => simp [stringUnits]
  | cons c more ih =>
      rw [List.flatMap_cons, List.append_assoc, stringUnits_escape, ih]
      simp

/-- The number of a character is not half of a surrogate pair. -/
theorem toNat_not_surrogate (c : Char) : ¬ (0xD800 ≤ c.toNat ∧ c.toNat < 0xE000) := by
  have hvalid := c.valid
  simp only [UInt32.isValidChar, Nat.isValidChar] at hvalid
  change ¬ (0xD800 ≤ c.val.toNat ∧ c.val.toNat < 0xE000)
  omega

theorem ofUnits_map_toNat (read cs : List Char) :
    ofUnits read (cs.map Char.toNat) = some (read.reverse ++ cs) := by
  induction cs generalizing read with
  | nil => simp [ofUnits]
  | cons c rest ih =>
      have hc := toNat_not_surrogate c
      cases rest with
      | nil => simp [ofUnits, hc]
      | cons d more =>
          have hhigh : ¬ (0xD800 ≤ c.toNat ∧ c.toNat < 0xDC00) := by omega
          have hlow : ¬ (0xDC00 ≤ c.toNat ∧ c.toNat < 0xE000) := by omega
          have hstep : ofUnits read ((c :: d :: more).map Char.toNat) =
              ofUnits (c :: read) ((d :: more).map Char.toNat) := by
            simp [ofUnits, hhigh, hlow]
          rw [hstep, ih]
          simp

theorem readString_quoted (s : String) (rest : List Char) :
    readString (s.toList.flatMap escape ++ '"' :: rest) = some (some s, rest) := by
  simp [readString, stringUnits_escaped, ofUnits_map_toNat]

/-! ## Values -/

/-- A value is found in front of whatever may follow it. -/
def ReadBack (j : Json) : Prop :=
  ∀ rest fuel, Ends rest → j.chars.length ≤ fuel →
    readValue fuel (j.chars ++ rest) = some (j, rest)

theorem skipSpace_cons {c : Char} (hc : isSpace c = false) (cs : List Char) :
    skipSpace (c :: cs) = c :: cs := by
  simp [skipSpace, hc]

theorem not_isSpace_of_isDigit {c : Char} (hc : c.isDigit = true ∨ c = '-') :
    isSpace c = false := by
  rcases hc with hc | rfl
  · by_contra hspace
    simp only [isSpace, Bool.not_eq_false, Bool.or_eq_true, beq_iff_eq] at hspace
    rcases hspace with ((rfl | rfl) | rfl) | rfl <;> exact absurd hc (by decide)
  · rfl

theorem readValue_of_isDigit {c : Char} (hc : c.isDigit = true ∨ c = '-') (fuel : Nat)
    (cs : List Char) : readValue (fuel + 1) (c :: cs) = readNumber (c :: cs) := by
  have hbranch : ∀ d ∈ ['n', 't', 'f', '"', '[', '\x7b'], c ≠ d := by
    rintro d hd rfl
    simp only [List.mem_cons, List.not_mem_nil, or_false] at hd
    rcases hd with rfl | rfl | rfl | rfl | rfl | rfl <;> exact absurd hc (by decide)
  rw [readValue, skipSpace_cons (not_isSpace_of_isDigit hc)]
  split
  all_goals first
    | rfl
    | next heq => exact absurd (List.cons.inj heq).1 (hbranch _ (by decide))

/-- A value starts with a character that is neither white space nor a closing bracket. -/
theorem exists_chars_cons (j : Json) :
    ∃ c cs, j.chars = c :: cs ∧ isSpace c = false ∧ c ≠ ']' := by
  cases j with
  | null | unreadable => exact ⟨'n', _, rfl, rfl, by decide⟩
  | bool b =>
      cases b with
      | true => exact ⟨'t', _, rfl, rfl, by decide⟩
      | false => exact ⟨'f', _, rfl, rfl, by decide⟩
  | number n =>
      obtain ⟨c, cs, hcons, hc⟩ := exists_numberChars_cons n
      refine ⟨c, cs, hcons, not_isSpace_of_isDigit hc, ?_⟩
      rintro rfl
      revert hc
      decide
  | string s => exact ⟨'"', _, rfl, rfl, by decide⟩
  | array items => cases items <;> exact ⟨'[', _, rfl, rfl, by decide⟩
  | object fields => cases fields <;> exact ⟨'\x7b', _, rfl, rfl, by decide⟩

theorem chars_length_pos (j : Json) : 0 < j.chars.length := by
  obtain ⟨c, cs, hcons, -⟩ := exists_chars_cons j
  simp [hcons]

theorem itemChars_length_pos (items : List Json) : 0 < (itemChars items).length := by
  cases items <;> simp [itemChars]

theorem fieldChars_length_pos (fields : List (String × Json)) :
    0 < (fieldChars fields).length := by
  cases fields <;> simp [fieldChars]

theorem ends_itemChars (items : List Json) (rest : List Char) : Ends (itemChars items ++ rest) := by
  cases items <;> exact ends_cons (by decide) _

theorem ends_fieldChars (fields : List (String × Json)) (rest : List Char) :
    Ends (fieldChars fields ++ rest) := by
  cases fields <;> exact ends_cons (by decide) _

theorem readItems_itemChars {items : List Json} (hitems : ∀ j ∈ items, ReadBack j)
    {item : Json} (hitem : ReadBack item) (read : List Json) (rest : List Char) {fuel : Nat}
    (hfuel : item.chars.length + (itemChars items).length ≤ fuel) :
    readItems fuel read (item.chars ++ (itemChars items ++ rest)) =
      some (.array (read.reverse ++ item :: items), rest) := by
  induction items generalizing item read fuel with
  | nil =>
      have hpos := chars_length_pos item
      obtain ⟨fuel, rfl⟩ : ∃ n, fuel = n + 1 := ⟨fuel - 1, by omega⟩
      rw [readItems, hitem _ fuel (ends_itemChars [] rest) (by simpa [itemChars] using hfuel)]
      simp [itemChars, skipSpace_cons (c := ']') rfl]
  | cons next more ih =>
      have hpos := itemChars_length_pos (next :: more)
      obtain ⟨fuel, rfl⟩ : ∃ n, fuel = n + 1 := ⟨fuel - 1, by omega⟩
      have hroom : next.chars.length + (itemChars more).length ≤ fuel := by
        simp only [itemChars, List.length_cons, List.length_append] at hfuel
        omega
      have hlater := ih (fun j hj => hitems j (List.mem_cons_of_mem _ hj))
        (hitems next List.mem_cons_self) (item :: read) hroom
      rw [readItems, hitem _ fuel (ends_itemChars _ rest) (by omega)]
      simpa [itemChars, skipSpace_cons (c := ',') rfl] using hlater

/-- How the fields of an object go on after those already read. -/
def fieldsAfter (fuel : Nat) (read : List (Option String × Json)) (rest : List Char) :
    Option (Json × List Char) :=
  match skipSpace rest with
  | ',' :: rest => readFields fuel read rest
  | '\x7d' :: rest => some (objectOf read.reverse, rest)
  | _ => none

/-- A field is read up to what follows its value. -/
theorem readFields_field {value : Json} (hvalue : ReadBack value) (key : String)
    (read : List (Option String × Json)) {rest : List Char} (hrest : Ends rest) {fuel : Nat}
    (hfuel : value.chars.length ≤ fuel) :
    readFields (fuel + 1) read (quoted key ++ ':' :: (value.chars ++ rest)) =
      fieldsAfter fuel ((some key, value) :: read) rest := by
  simp only [readFields, quoted, List.cons_append, List.append_assoc, List.nil_append,
    skipSpace_cons (c := '"') rfl, readString_quoted, Option.bind_eq_bind, Option.bind_some,
    skipSpace_cons (c := ':') rfl, hvalue rest fuel hrest hfuel]
  rfl

theorem readFields_fieldChars {fields : List (String × Json)}
    (hfields : ∀ field ∈ fields, ReadBack field.2) {value : Json} (hvalue : ReadBack value)
    (key : String) (read : List (Option String × Json)) (rest : List Char) {fuel : Nat}
    (hfuel : value.chars.length + (fieldChars fields).length ≤ fuel) :
    readFields fuel read (quoted key ++ ':' :: (value.chars ++ (fieldChars fields ++ rest))) =
      some (objectOf (read.reverse ++
        ((key, value) :: fields).map fun field => (some field.1, field.2)), rest) := by
  have hpos := fieldChars_length_pos fields
  obtain ⟨fuel, rfl⟩ : ∃ n, fuel = n + 1 := ⟨fuel - 1, by omega⟩
  rw [readFields_field hvalue key read (ends_fieldChars fields rest) (by omega)]
  induction fields generalizing key value read fuel with
  | nil => simp [fieldsAfter, fieldChars, skipSpace_cons (c := '\x7d') rfl]
  | cons field more ih =>
      obtain ⟨nextKey, next⟩ := field
      have hmore := fieldChars_length_pos more
      have hroom : next.chars.length + (fieldChars more).length ≤ fuel := by
        simp only [fieldChars, List.length_cons, List.length_append] at hfuel
        omega
      obtain ⟨fuel, rfl⟩ : ∃ n, fuel = n + 1 := ⟨fuel - 1, by omega⟩
      have hnext : ReadBack next := hfields _ List.mem_cons_self
      have hlater := ih (fun f hf => hfields f (List.mem_cons_of_mem _ hf)) hnext nextKey
        ((some key, value) :: read) hmore fuel hroom
      simp only [fieldsAfter, fieldChars, List.cons_append, skipSpace_cons (c := ',') rfl,
        List.append_assoc]
      rw [readFields_field hnext nextKey _ (ends_fieldChars more rest) (by omega), hlater]
      simp

theorem objectOf_some (fields : List (String × Json)) :
    objectOf (fields.map fun field => (some field.1, field.2)) = .object fields := by
  rw [objectOf, mapM_map_eq_some]
  exact fun field => rfl

/-- A value that a text can hold is read back from its text. -/
theorem Written.readBack {j : Json} (hj : j.Written) : ReadBack j := by
  induction hj with
  | null =>
      intro rest fuel _ hfuel
      obtain ⟨fuel, rfl⟩ : ∃ n, fuel = n + 1 := ⟨fuel - 1, by simp [chars] at hfuel; omega⟩
      rfl
  | bool b =>
      intro rest fuel _ hfuel
      cases b <;>
      · obtain ⟨fuel, rfl⟩ : ∃ n, fuel = n + 1 := ⟨fuel - 1, by simp [chars] at hfuel; omega⟩
        rfl
  | @number n hrange =>
      intro rest fuel hrest hfuel
      have hpos := chars_length_pos (.number n)
      obtain ⟨fuel, rfl⟩ : ∃ n, fuel = n + 1 := ⟨fuel - 1, by omega⟩
      have hread := readNumber_chars hrange hrest
      obtain ⟨c, cs, hcons, hc⟩ := exists_numberChars_cons n
      rw [hcons, List.cons_append] at hread
      rw [chars, hcons, List.cons_append, readValue_of_isDigit hc, hread]
  | string s =>
      intro rest fuel _ hfuel
      have hpos := chars_length_pos (.string s)
      obtain ⟨fuel, rfl⟩ : ∃ n, fuel = n + 1 := ⟨fuel - 1, by omega⟩
      simp [chars, quoted, readValue, skipSpace_cons (c := '"') rfl, readString_quoted, stringValue]
  | @array items _ ih =>
      intro rest fuel _ hfuel
      have hpos := chars_length_pos (.array items)
      obtain ⟨fuel, rfl⟩ : ∃ n, fuel = n + 1 := ⟨fuel - 1, by omega⟩
      cases items with
      | nil => simp [chars, readValue, skipSpace_cons (c := '[') rfl, skipSpace_cons (c := ']') rfl]
      | cons item more =>
          have hroom : item.chars.length + (itemChars more).length ≤ fuel := by
            simp only [chars, List.length_cons, List.length_append] at hfuel
            omega
          have hitems := readItems_itemChars (fun j hj => ih j (List.mem_cons_of_mem _ hj))
            (ih item List.mem_cons_self) [] rest hroom
          obtain ⟨c, cs, hcons, hspace, hclose⟩ := exists_chars_cons item
          rw [hcons, List.cons_append] at hitems
          rw [chars, hcons]
          simp only [List.cons_append, List.append_assoc, readValue, skipSpace_cons (c := '[') rfl,
            skipSpace_cons hspace]
          simpa [hclose] using hitems
  | @object fields _ ih =>
      intro rest fuel _ hfuel
      have hpos := chars_length_pos (.object fields)
      obtain ⟨fuel, rfl⟩ : ∃ n, fuel = n + 1 := ⟨fuel - 1, by omega⟩
      cases fields with
      | nil =>
          simp [chars, readValue, skipSpace_cons (c := '\x7b') rfl,
            skipSpace_cons (c := '\x7d') rfl]
      | cons field more =>
          obtain ⟨key, value⟩ := field
          have hroom : value.chars.length + (fieldChars more).length ≤ fuel := by
            simp only [chars, List.length_cons, List.length_append] at hfuel
            omega
          have hfields := readFields_fieldChars (fun f hf => ih f (List.mem_cons_of_mem _ hf))
            (ih _ List.mem_cons_self) key [] rest hroom
          rw [List.reverse_nil, List.nil_append, objectOf_some] at hfields
          rw [chars]
          simp only [List.cons_append, List.append_assoc, readValue, quoted,
            skipSpace_cons (c := '\x7b') rfl, skipSpace_cons (c := '"') rfl]
          simpa [quoted] using hfields

/-- The compact text of a value that a text can hold is the text of that value alone. -/
theorem Written.parse_compact {j : Json} (hj : j.Written) : parse j.compact = some j := by
  have hread := hj.readBack [] (2 * j.chars.length + 2) ends_nil (by omega)
  rw [List.append_nil] at hread
  rw [parse, compact, String.toList_ofList, ofChars, hread]
  rfl

/-- Values that a text can hold are told apart by their compact texts. -/
theorem Written.eq_of_compact {j k : Json} (hj : j.Written) (hk : k.Written)
    (htext : j.compact = k.compact) : j = k := by
  have hparse := hj.parse_compact
  rw [htext, hk.parse_compact] at hparse
  exact (Option.some.inj hparse).symm

end ContainerLaunch.Json
