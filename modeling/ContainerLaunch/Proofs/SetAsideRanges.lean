import ContainerLaunch.IdMap.Fakeroot
import ContainerLaunch.Proofs.Actions
import ContainerLaunch.Proofs.Text
/-!
# Which range is set aside for a user

A file of ranges is read line by line.  A line that describes a range has an owner and two
numbers of 32 bits between colons; other lines and comments do not count.  Of the ranges that
are described, the first one that is not empty and whose owner is the user, by name or by
number, is the user's.
-/

namespace ContainerLaunch

/-! ## Numbers of 32 bits -/

namespace Text

/-- A text writes a number of 32 bits: in decimal digits, with a plus sign before them or
without. -/
def Writes (s : String) (n : UInt32) : Prop :=
  ∃ ds : List Char, (s.toList = ds ∨ s.toList = '+' :: ds) ∧ ds ≠ [] ∧
    (∀ c ∈ ds, c.isDigit = true) ∧ Nat.ofDigitChars 10 ds 0 = n.toNat

theorem digitValue_eq (c : Char) :
    digitValue c = if c.isDigit then some (c.toNat - '0'.toNat) else none := by
  have hdigit : c.isDigit = true ↔ '0' ≤ c ∧ c ≤ '9' := by
    simp [Char.isDigit, Char.le_def]
  unfold digitValue
  by_cases hc : '0' ≤ c ∧ c ≤ '9'
  · rw [if_pos hc, if_pos (hdigit.mpr hc)]
  · rw [if_neg hc, if_neg fun h => hc (hdigit.mp h)]

theorem digitsFrom_eq_some_iff {acc n : Nat} {cs : List Char} :
    digitsFrom acc cs = some n ↔
      (∀ c ∈ cs, c.isDigit = true) ∧ Nat.ofDigitChars 10 cs acc = n := by
  induction cs generalizing acc with
  | nil => simp [digitsFrom, Nat.ofDigitChars]
  | cons c rest ih =>
      rw [digitsFrom, digitValue_eq]
      by_cases hc : c.isDigit = true
      · simp [hc, ih, Nat.ofDigitChars, Nat.mul_comm acc]
      · simp [hc]

theorem natOfDigits_eq_some_iff {n : Nat} {cs : List Char} :
    natOfDigits cs = some n ↔
      cs ≠ [] ∧ (∀ c ∈ cs, c.isDigit = true) ∧ Nat.ofDigitChars 10 cs 0 = n := by
  cases cs with
  | nil => simp [natOfDigits]
  | cons c rest => simp [natOfDigits, digitsFrom_eq_some_iff]

/-- What is read as a number of 32 bits is what writes one. -/
theorem u32?_eq_some_iff {s : String} {n : UInt32} : u32? s = some n ↔ Writes s n := by
  have hread : ∀ ds : List Char, ((natOfDigits ds >>= below UInt32.size).map UInt32.ofNat =
      some n ↔ ds ≠ [] ∧ (∀ c ∈ ds, c.isDigit = true) ∧ Nat.ofDigitChars 10 ds 0 = n.toNat) := by
    intro ds
    simp only [Option.bind_eq_bind, Option.map_eq_some_iff, Option.bind_eq_some_iff,
      below_eq_some_iff, ← natOfDigits_eq_some_iff]
    constructor
    · rintro ⟨m, ⟨value, hvalue, hsize, rfl⟩, rfl⟩
      rw [hvalue, UInt32.toNat_ofNat_of_lt' hsize]
    · intro hvalue
      exact ⟨n.toNat, ⟨n.toNat, hvalue, n.toNat_lt, rfl⟩, UInt32.ofNat_toNat⟩
  rw [Writes, u32?]
  unfold natOfChars
  split
  · next rest hplus =>
    -- a plus sign is no digit, so what follows it is the number
    rw [hread, hplus]
    constructor
    · intro hrest
      exact ⟨rest, Or.inr rfl, hrest⟩
    · rintro ⟨ds, rfl | hds, hne, hdigits, hvalue⟩
      · exact absurd (hdigits '+' List.mem_cons_self) (by decide)
      · obtain ⟨-, rfl⟩ := List.cons.inj hds
        exact ⟨hne, hdigits, hvalue⟩
  · next cs hplus =>
    rw [hread]
    constructor
    · intro hcs
      exact ⟨s.toList, Or.inl rfl, hcs⟩
    · rintro ⟨ds, rfl | hds, hrest⟩
      · exact hrest
      · exact absurd hds (hplus ds)

/-- A text writes one number at most. -/
theorem Writes.unique {s : String} {n m : UInt32} (hn : Writes s n) (hm : Writes s m) :
    n = m :=
  Option.some.inj ((u32?_eq_some_iff.mpr hn).symm.trans (u32?_eq_some_iff.mpr hm))

/-- What writes a number is not blank. -/
theorem Writes.trim_ne_empty {s : String} {n : UInt32} (hwrites : Writes s n) : trim s ≠ "" := by
  obtain ⟨ds, htext, hne, hdigits, -⟩ := hwrites
  intro hblank
  obtain ⟨d, hd⟩ := List.exists_mem_of_ne_nil ds hne
  have hmem : d ∈ s.toList := by
    rcases htext with htext | htext
    · exact htext ▸ hd
    · exact htext ▸ List.mem_cons_of_mem _ hd
  have hnot := isBlank_of_isDigit (hdigits d hd)
  rw [trim_eq_empty_iff.mp hblank d hmem] at hnot
  cases hnot

end Text

/-! ## Lines -/

namespace SubIdRange

variable {line content : String} {r : SubIdRange} {username : String} {uid : UInt32}

/-- A line, without the white space around it, describes a range: it is no comment, and has
an owner and two numbers between colons.  There may be white space around the numbers, and
more fields after them. -/
structure Describes (line : String) (r : SubIdRange) : Prop where
  not_comment : (Text.trim line).toList.head? ≠ some '#'
  fields : ∃ start count rest,
    Text.pieces ':' (Text.trim line) = r.owner :: start :: count :: rest ∧
      Text.Writes (Text.trim start) r.start ∧ Text.Writes (Text.trim count) r.count

/-- A range that is not empty and whose owner is a user, by name if the user has one or by
number. -/
structure SetAsideFor (r : SubIdRange) (username : String) (uid : UInt32) : Prop where
  count_pos : 0 < r.count.toNat
  owner : username ≠ "" ∧ r.owner = username ∨ Text.Writes r.owner uid

/-- The range of the first line that describes one for a user. -/
def FirstFor (content username : String) (uid : UInt32) (r : SubIdRange) : Prop :=
  ∃ before line after, Text.lines content = before ++ line :: after ∧ Describes line r ∧
    r.SetAsideFor username uid ∧
    ∀ other ∈ before, ∀ r', Describes other r' → ¬ r'.SetAsideFor username uid

/-- No line describes a range for a user. -/
def NoneFor (content username : String) (uid : UInt32) : Prop :=
  ∀ line ∈ Text.lines content, ∀ r, Describes line r → ¬ r.SetAsideFor username uid

/-- The range that a line describes, if it describes one. -/
def read (line : String) : Option SubIdRange :=
  if isEntry (Text.trim line) then ofLine (Text.trim line) else none

theorem parse_eq (content : String) : parse content = (Text.lines content).filterMap read := by
  rw [parse, List.filter_map, List.filterMap_map, List.filterMap_filter]
  simp only [Function.comp_apply]
  rfl

theorem ofLine_eq_some_iff {text : String} :
    ofLine text = some r ↔ ∃ start count rest,
      Text.pieces ':' text = r.owner :: start :: count :: rest ∧
        Text.Writes (Text.trim start) r.start ∧ Text.Writes (Text.trim count) r.count := by
  simp only [← Text.u32?_eq_some_iff]
  unfold ofLine
  split
  · next owner start count rest hpieces =>
    simp only [Option.bind_eq_bind, Option.bind_eq_some_iff, Option.some.injEq, hpieces,
      List.cons.injEq]
    constructor
    · rintro ⟨n, hn, m, hm, rfl⟩
      exact ⟨start, count, rest, ⟨rfl, rfl, rfl, rfl⟩, hn, hm⟩
    · rintro ⟨_, _, _, ⟨rfl, rfl, rfl, rfl⟩, hn, hm⟩
      exact ⟨_, hn, _, hm, rfl⟩
  · next hpieces =>
    constructor
    · intro hnone
      cases hnone
    · rintro ⟨start, count, rest, hfields, -⟩
      exact absurd hfields (hpieces _ _ _ _)

/-- A line is read as what it describes. -/
theorem read_eq_some_iff : read line = some r ↔ Describes line r := by
  have hcomment : (Text.stripStart "#" (Text.trim line)).isNone = true ↔
      (Text.trim line).toList.head? ≠ some '#' := by
    rw [Text.stripStart]
    cases (Text.trim line).toList with
    | nil => simp [Text.afterPrefix]
    | cons c rest => simp [Text.afterPrefix, @eq_comm Char '#' c]
  have hblank : Text.pieces ':' "" = [""] := rfl
  have hentry : isEntry (Text.trim line) = true ↔
      Text.trim line ≠ "" ∧ (Text.trim line).toList.head? ≠ some '#' := by
    rw [isEntry, Bool.and_eq_true, hcomment, bne_iff_ne]
  rw [read, Option.ite_none_right_eq_some, hentry, ofLine_eq_some_iff]
  constructor
  · rintro ⟨⟨-, hnot⟩, hfields⟩
    exact ⟨hnot, hfields⟩
  · rintro ⟨hnot, hfields⟩
    refine ⟨⟨fun hempty => ?_, hnot⟩, hfields⟩
    obtain ⟨start, count, rest, hpieces, -⟩ := hfields
    rw [hempty, hblank] at hpieces
    simp at hpieces

theorem isFor_iff : r.isFor username uid = true ↔ r.SetAsideFor username uid := by
  have hcount : r.count ≠ 0 ↔ 0 < r.count.toNat := by
    rw [Nat.pos_iff_ne_zero, ne_eq, ne_eq, ← UInt32.toNat_inj]
    rfl
  simp only [isFor, Bool.and_eq_true, Bool.or_eq_true, bne_iff_ne, beq_iff_eq, hcount,
    Text.u32?_eq_some_iff]
  exact ⟨fun ⟨hpos, howner⟩ => ⟨hpos, howner⟩, fun h => ⟨h.count_pos, h.owner⟩⟩

/-! ## Files -/

/-- A line is passed over exactly if it describes no range for the user. -/
theorem any_read_eq_false_iff :
    (read line).any (fun r => r.isFor username uid) = false ↔
      ∀ r, Describes line r → ¬ r.SetAsideFor username uid := by
  simp only [← read_eq_some_iff, ← isFor_iff]
  cases read line with
  | none => simp
  | some r => simp

/-- The range that is selected in a file is that of the first line for the user. -/
theorem first?_parse_eq_some_iff :
    first? (parse content) username uid = some r ↔ FirstFor content username uid r := by
  rw [first?, parse_eq, List.find?_filterMap, Option.bind_eq_some_iff]
  simp only [List.find?_eq_some_iff_append, Bool.not_eq_true', any_read_eq_false_iff]
  constructor
  · rintro ⟨line, ⟨hany, before, after, hlines, hbefore⟩, hread⟩
    rw [hread] at hany
    exact ⟨before, line, after, hlines, read_eq_some_iff.mp hread, isFor_iff.mp hany, hbefore⟩
  · rintro ⟨before, line, after, hlines, hline, hfor, hbefore⟩
    have hread := read_eq_some_iff.mpr hline
    refine ⟨line, ⟨?_, before, after, hlines, hbefore⟩, hread⟩
    rw [hread]
    exact isFor_iff.mpr hfor

theorem first?_parse_eq_none_iff :
    first? (parse content) username uid = none ↔ NoneFor content username uid := by
  rw [first?, parse_eq, List.find?_eq_none]
  constructor
  · intro hnone line hline r hr hfor
    exact hnone r (List.mem_filterMap.mpr ⟨line, hline, read_eq_some_iff.mpr hr⟩)
      (isFor_iff.mpr hfor)
  · intro hnone r hr hfor
    obtain ⟨line, hline, hread⟩ := List.mem_filterMap.mp hr
    exact hnone line hline r (read_eq_some_iff.mp hread) (isFor_iff.mp hfor)

theorem load_ok {h : Host} {file : Path} {rs : List SubIdRange} :
    load h file = .ok rs ↔ ∃ content, h.readText file = .ok content ∧ parse content = rs := by
  unfold load
  cases h.readText file with
  | ok content => simp
  | error cause => simp

end SubIdRange

/-! ## Maps -/

namespace SubordinateMaps

variable {uid gid : UInt32} {username kind : String} {subuid subgid rs : List SubIdRange}
  {mode : MapWriter} {maps : SubordinateMaps}

theorem neededRange_ok {r : SubIdRange} :
    neededRange kind rs username uid = .ok r ↔ SubIdRange.first? rs username uid = some r := by
  unfold neededRange
  cases SubIdRange.first? rs username uid with
  | some range => simp
  | none => simp

/-- There are maps for a caller exactly if there is a range in both lists. -/
theorem build_ok :
    build uid gid username subuid subgid mode = .ok maps ↔
      ∃ users groups, SubIdRange.first? subuid username uid = some users ∧
        SubIdRange.first? subgid username uid = some groups ∧
        maps = ⟨mapOf uid users, mapOf gid groups, mode⟩ := by
  simp only [build, Error.bind_eq_ok, neededRange_ok]
  constructor
  · rintro ⟨users, husers, groups, hgroups, hmaps⟩
    exact ⟨users, groups, husers, hgroups, (Except.ok.inj hmaps).symm⟩
  · rintro ⟨users, groups, husers, hgroups, rfl⟩
    exact ⟨users, husers, groups, hgroups, rfl⟩

end SubordinateMaps
end ContainerLaunch
