import Mathlib.Data.List.Forall2
import ContainerLaunch.Mounts.Autofs
import ContainerLaunch.Proofs.Text
import ContainerLaunch.Proofs.Words
/-!
# The mount table of the kernel

The kernel writes a line for each mount, its fields with single spaces between them.  In the
root and the mount point it writes spaces, tabs, line feeds and backslashes as three octal
digits, and nothing else: any other white space stands there as it is.  A reader that cuts a
line at every kind of white space takes such a blank for the end of a field.  So the table
is read back as it was meant exactly where no path holds one; the mounts themselves, with
what they are and where they come from, are always found.
-/

namespace ContainerLaunch

/-! ## Writing a table -/

namespace KernelMount

/-- A character of a path as it is written in a field. -/
def escapeChar (c : Char) : List Char :=
  if c = ' ' then ['\\', '0', '4', '0']
  else if c = '\t' then ['\\', '0', '1', '1']
  else if c = '\n' then ['\\', '0', '1', '2']
  else if c = '\\' then ['\\', '1', '3', '4']
  else [c]

def escape (s : String) : String :=
  String.ofList (s.toList.flatMap escapeChar)

/-- A blank that is written as it is. -/
def isBare (c : Char) : Bool :=
  Text.isBlank c && escapeChar c == [c]

/-- A text that stands as one field between single spaces, and is not the lone dash. -/
def IsField (s : String) : Prop :=
  ' ' ∉ s.toList ∧ '\n' ∉ s.toList ∧ s ≠ "-"

/-- A text without blanks that is not empty. -/
def IsWord (s : String) : Prop :=
  s ≠ "" ∧ ∀ c ∈ s.toList, Text.isBlank c = false

instance (s : String) : Decidable (IsField s) :=
  inferInstanceAs (Decidable (_ ∧ _ ∧ _))

instance (s : String) : Decidable (IsWord s) :=
  decidable_of_iff (s ≠ "" ∧ s.toList.all (fun c => !Text.isBlank c) = true) (by simp [IsWord])

end KernelMount

/-- A mount as the kernel knows it.  The root of a mount is a path, or a name such as that of
a namespace. -/
structure KernelMount where
  number : Nat
  parent : Nat
  major : Nat
  minor : Nat
  root : String
  mountPoint : Path
  options : String
  /-- The optional fields. -/
  tags : List String
  kind : String
  source : String
  superOptions : String
  root_start : ∃ c ∈ root.toList.head?, Text.isBlank c = false
  root_ne : root ≠ "-" := by decide +kernel
  mountPoint_absolute : mountPoint.isAbsolute = true := by decide +kernel
  options_field : KernelMount.IsField options := by decide +kernel
  tags_field : ∀ tag ∈ tags, KernelMount.IsField tag := by decide +kernel
  kind_word : KernelMount.IsWord kind := by decide +kernel
  source_word : KernelMount.IsWord source := by decide +kernel
  superOptions_word : KernelMount.IsWord superOptions := by decide +kernel

namespace KernelMount

variable {m : KernelMount} {c : Char} {s : String}

/-- The number of the device that is mounted. -/
def device (m : KernelMount) : String :=
  toString m.major ++ ":" ++ toString m.minor

/-- The fields before the lone dash. -/
def leading (m : KernelMount) : List String :=
  [toString m.number, toString m.parent, m.device, escape m.root, escape m.mountPoint.text,
    m.options] ++ m.tags

/-- The fields after the lone dash. -/
def trailing (m : KernelMount) : List String :=
  [m.kind, m.source, m.superOptions]

def line (m : KernelMount) : String :=
  Text.join " " (m.leading ++ "-" :: m.trailing)

def table (ms : List KernelMount) : String :=
  Text.join "" (ms.map fun m => m.line ++ "\n")

/-- What is to be read for a mount. -/
def entry (m : KernelMount) : MountEntry :=
  ⟨m.mountPoint, m.kind, m.source⟩

/-- What white space leaves of the root and the mount point of a line. -/
def runs (m : KernelMount) : List (List Char) :=
  Text.runsOf isBare m.root.toList ++ Text.runsOf isBare m.mountPoint.text.toList

/-- Nothing in the root or the mount point is taken for the end of a field.  A root that
comes apart does no harm where its second part is the mount point, or where there is none
because the blank is at the end. -/
structure Legible (m : KernelMount) : Prop where
  mountPoint_whole : ∀ c ∈ m.mountPoint.text.toList, isBare c = false
  root_whole : ∀ part, (Text.runsOf isBare m.root.toList)[1]? = some part →
    part = m.mountPoint.text.toList

/-! ## Escapes -/

/-- A character is one of the four that are escaped, or it is written as it is. -/
theorem escapeChar_cases (c : Char) :
    (c = ' ' ∨ c = '\t' ∨ c = '\n' ∨ c = '\\') ∨
      (c ≠ ' ' ∧ c ≠ '\t' ∧ c ≠ '\n' ∧ c ≠ '\\') ∧ escapeChar c = [c] := by
  by_cases hc : c = ' ' ∨ c = '\t' ∨ c = '\n' ∨ c = '\\'
  · exact Or.inl hc
  · simp only [not_or] at hc
    obtain ⟨hspace, htab, hfeed, hbackslash⟩ := hc
    exact Or.inr ⟨⟨hspace, htab, hfeed, hbackslash⟩,
      by simp only [escapeChar, hspace, htab, hfeed, hbackslash, if_false]⟩

/-- A blank that is not bare is written without blanks. -/
theorem not_blank_of_mem_escapeChar (hc : isBare c = false) :
    escapeChar c ≠ [] ∧ ∀ d ∈ escapeChar c, Text.isBlank d = false := by
  rcases escapeChar_cases c with hfour | ⟨-, hsame⟩
  · have hall : escapeChar c ≠ [] ∧ (escapeChar c).all (fun d => !Text.isBlank d) = true := by
      rcases hfour with rfl | rfl | rfl | rfl <;> decide
    exact ⟨hall.1, by simpa using hall.2⟩
  · have hblank : Text.isBlank c = false := by simpa [isBare, hsame] using hc
    simp [hsame, hblank]

theorem escapeChar_of_isBare (hc : isBare c = true) :
    escapeChar c = [c] ∧ Text.isBlank c = true := by
  simp only [isBare, Bool.and_eq_true, beq_iff_eq] at hc
  exact hc.symm

theorem isBare_of_not_blank (hc : Text.isBlank c = false) : isBare c = false := by
  simp [isBare, hc]

theorem not_mem_escape (hc : c = ' ' ∨ c = '\n') (s : String) : c ∉ (escape s).toList := by
  rw [escape, String.toList_ofList, List.mem_flatMap]
  rintro ⟨d, -, hd⟩
  rcases escapeChar_cases d with hfour | ⟨⟨hspace, -, hfeed, -⟩, hsame⟩
  · have hall : ' ' ∉ escapeChar d ∧ '\n' ∉ escapeChar d := by
      rcases hfour with rfl | rfl | rfl | rfl <;> decide
    rcases hc with rfl | rfl
    · exact hall.1 hd
    · exact hall.2 hd
  · rw [hsame, List.mem_singleton] at hd
    rcases hc with rfl | rfl
    · exact hspace hd.symm
    · exact hfeed hd.symm

/-- White space cuts a path that is written where it holds a bare blank. -/
theorem runsOf_escape (s : String) :
    Text.runsOf Text.isBlank (escape s).toList =
      (Text.runsOf isBare s.toList).map (·.flatMap escapeChar) := by
  rw [escape, String.toList_ofList]
  exact Text.runsOf_flatMap (fun _ => escapeChar_of_isBare) (fun _ => not_blank_of_mem_escapeChar) _

end KernelMount

namespace MountEntry

open KernelMount

theorem unescape_cons_of_ne {octet : UInt8} (hne : octet ≠ 0x5c) (rest : List UInt8) :
    unescape (octet :: rest) = octet :: unescape rest :=
  unescape.eq_2 octet rest fun _ _ _ _ h => absurd h hne

theorem unescape_append_of_not_mem {octets : List UInt8} (hplain : (0x5c : UInt8) ∉ octets)
    (rest : List UInt8) : unescape (octets ++ rest) = octets ++ unescape rest := by
  induction octets with
  | nil => rfl
  | cons octet more ih =>
      have hne : octet ≠ 0x5c := fun h => hplain (by simp [h])
      have hmore : (0x5c : UInt8) ∉ more := fun h => hplain (List.mem_cons_of_mem _ h)
      rw [List.cons_append, unescape_cons_of_ne hne, ih hmore, List.cons_append]

/-- One character is read back whatever follows it, also if that starts with a digit. -/
theorem unescape_escapeChar (c : Char) (rest : List UInt8) :
    unescape ((escapeChar c).flatMap String.utf8EncodeChar ++ rest) =
      String.utf8EncodeChar c ++ unescape rest := by
  rcases escapeChar_cases c with hfour | ⟨⟨-, -, -, hbackslash⟩, hsame⟩
  · rcases hfour with rfl | rfl | rfl | rfl <;> rfl
  · rw [hsame, List.flatMap_singleton]
    apply unescape_append_of_not_mem
    intro hmem
    exact Text.octet_ne_of_ne (d := '\\') (by decide) hbackslash hmem rfl

theorem unescape_escape (cs : List Char) :
    unescape ((cs.flatMap escapeChar).flatMap String.utf8EncodeChar) =
      cs.flatMap String.utf8EncodeChar := by
  induction cs with
  | nil => rfl
  | cons c rest ih =>
      rw [List.flatMap_cons, List.flatMap_append, unescape_escapeChar, ih, List.flatMap_cons]

/-- Every path is read back from the way it is written. -/
theorem unescapeField_escape (s : String) : unescapeField (escape s) = s := by
  have hoctets : unescape (Text.octets (escape s)).toList = (Text.octets s).data.toList := by
    rw [Octets.toList_eq, Text.toList_octets, Text.toList_octets, escape, String.toList_ofList,
      unescape_escape]
  rw [unescapeField, hoctets, Array.toArray_toList]
  exact Text.readLossy_octets s

/-! ## Cutting a line -/

/-- A field that is not the lone dash is not where a line is cut. -/
theorem afterPrefix_dash {field : List Char} (hspace : ' ' ∉ field) (hdash : field ≠ ['-'])
    (rest : List Char) : Text.afterPrefix ['-', ' '] (field ++ ' ' :: rest) = none := by
  rw [Option.eq_none_iff_forall_not_mem]
  intro after hafter
  have htext := Text.afterPrefix_eq_some_iff.mp hafter
  cases field with
  | nil => simp at htext
  | cons c others =>
      obtain ⟨rfl, htail⟩ := List.cons.inj htext
      cases others with
      | nil => exact hdash rfl
      | cons d more =>
          obtain ⟨rfl, -⟩ := List.cons.inj htail
          exact hspace (by simp)

/-- A line of fields is cut at the lone dash. -/
theorem cutAtList_intercalate {fields : List (List Char)} (hne : fields ≠ [])
    (hfields : ∀ f ∈ fields, ' ' ∉ f ∧ f ≠ ['-']) (after : List Char) :
    Text.cutAtList [' ', '-', ' '] ([' '].intercalate fields ++ ' ' :: '-' :: ' ' :: after) =
      some ([' '].intercalate fields, after) := by
  induction fields with
  | nil => exact absurd rfl hne
  | cons field rest ih =>
      obtain ⟨hspace, -⟩ := hfields field List.mem_cons_self
      cases rest with
      | nil =>
          rw [List.intercalate_singleton, Text.cutAtList_append_of_not_mem hspace]
          simp [Text.cutAtList, Text.afterPrefix]
      | cons next others =>
          have hrest := ih (List.cons_ne_nil _ _) fun f hf => hfields f (List.mem_cons_of_mem _ hf)
          obtain ⟨hnext, hdash⟩ := hfields next (by simp)
          obtain ⟨more, hmore⟩ :=
            Text.exists_intercalate_append ' ' next others ('-' :: ' ' :: after)
          have hno : Text.afterPrefix [' ', '-', ' '] (' ' ::
              ([' '].intercalate (next :: others) ++ ' ' :: '-' :: ' ' :: after)) = none := by
            rw [Text.afterPrefix, if_pos rfl, hmore]
            exact afterPrefix_dash hnext hdash more
          rw [List.intercalate_cons_cons, List.append_assoc, List.append_assoc,
            List.singleton_append, Text.cutAtList_append_of_not_mem hspace, Text.cutAtList, hno,
            hrest]
          simp

end MountEntry

namespace KernelMount

variable {m : KernelMount} {ms : List KernelMount} {s : String}

theorem toList_line (m : KernelMount) :
    m.line.toList = [' '].intercalate (m.leading.map String.toList) ++
      ' ' :: '-' :: ' ' :: [' '].intercalate (m.trailing.map String.toList) := by
  have hleading : m.leading.map String.toList ≠ [] := by simp [leading]
  rw [line, Text.join, String.toList_intercalate, List.map_append, List.map_cons]
  change [' '].intercalate _ = _
  rw [Text.intercalate_append_cons ' ' hleading]
  simp [trailing, List.intercalate_cons_cons]

/-! ### Fields -/

theorem IsWord.isField (hs : IsWord s) (hne : s ≠ "-") : IsField s := by
  have hnot : ∀ c, Text.isBlank c = true → c ∉ s.toList := by
    intro c hc hmem
    rw [hs.2 c hmem] at hc
    cases hc
  exact ⟨hnot ' ' (by decide), hnot '\n' (by decide), hne⟩

/-- A text without blanks is one run. -/
theorem IsWord.runsOf_eq (hs : IsWord s) : Text.runsOf Text.isBlank s.toList = [s.toList] :=
  Text.runsOf_of_forall (by simpa using hs.1) hs.2

theorem toList_number (n : Nat) : (toString n).toList = Nat.toDigits 10 n :=
  String.toList_ofList

theorem isDigit_of_mem_toString {n : Nat} {c : Char} (hc : c ∈ (toString n).toList) :
    c.isDigit = true := by
  rw [toList_number] at hc
  exact Text.isDigit_of_mem_toDigits c hc

/-- The numbers at the start of a line are fields, also with a colon between two of them. -/
theorem isWord_of_numbers (hne : s ≠ "") (hs : ∀ c ∈ s.toList, c.isDigit = true ∨ c = ':') :
    IsWord s ∧ s ≠ "-" := by
  refine ⟨⟨hne, fun c hc => ?_⟩, fun hdash => ?_⟩
  · rcases hs c hc with hdigit | rfl
    · exact Text.isBlank_of_isDigit hdigit
    · decide
  · have hminus := hs '-' (by rw [hdash]; decide)
    revert hminus
    decide

theorem mountPoint_start (m : KernelMount) : m.mountPoint.text.toList.head? = some '/' := by
  simpa [Path.isAbsolute] using m.mountPoint_absolute

theorem isWord_toString (n : Nat) : IsWord (toString n) ∧ toString n ≠ "-" := by
  refine isWord_of_numbers ?_ fun c hc => Or.inl (isDigit_of_mem_toString hc)
  intro hempty
  have hdigits := toList_number n
  rw [hempty] at hdigits
  exact Nat.toDigits_ne_nil hdigits.symm

theorem isWord_device (m : KernelMount) : IsWord m.device ∧ m.device ≠ "-" := by
  refine isWord_of_numbers ?_ fun c hc => ?_
  · intro hempty
    have hcolon : ':' ∈ m.device.toList := by simp [device]
    rw [hempty] at hcolon
    cases hcolon
  · simp only [device, String.toList_append, List.mem_append] at hc
    rcases hc with (hmajor | hcolon) | hminor
    · exact Or.inl (isDigit_of_mem_toString hmajor)
    · exact Or.inr (by simpa using hcolon)
    · exact Or.inl (isDigit_of_mem_toString hminor)

/-- A path is a field as it is written, if it is not a lone dash itself. -/
theorem isField_escape (hne : s ≠ "-") : IsField (escape s) := by
  refine ⟨not_mem_escape (Or.inl rfl) s, not_mem_escape (Or.inr rfl) s, fun hdash => hne ?_⟩
  have hself : escape "-" = "-" := by decide
  calc
    s = MountEntry.unescapeField (escape s) := (MountEntry.unescapeField_escape s).symm
    _ = MountEntry.unescapeField (escape "-") := by rw [hdash, hself]
    _ = "-" := MountEntry.unescapeField_escape "-"

/-- No field before the lone dash ends a line or is a lone dash itself. -/
theorem leading_field (m : KernelMount) : ∀ f ∈ m.leading, IsField f := by
  have hnumber : ∀ n : Nat, IsField (toString n) := fun n =>
    (isWord_toString n).1.isField (isWord_toString n).2
  have hpoint : m.mountPoint.text ≠ "-" := by
    intro hdash
    have hstart := m.mountPoint_start
    rw [hdash] at hstart
    exact absurd hstart (by decide)
  simp only [leading, List.forall_mem_append, List.forall_mem_cons]
  exact ⟨⟨hnumber _, hnumber _, (isWord_device m).1.isField (isWord_device m).2,
    isField_escape m.root_ne, isField_escape hpoint, m.options_field, nofun⟩, m.tags_field⟩

/-! ### What is read from a line -/

theorem root_runs_pos (m : KernelMount) : 0 < (Text.runsOf isBare m.root.toList).length := by
  obtain ⟨c, hstart, hc⟩ := m.root_start
  exact List.length_pos_iff.mpr
    (Text.runsOf_ne_nil (List.mem_of_head? hstart) (isBare_of_not_blank hc))

/-- The root and the mount point leave a piece each, at least. -/
theorem exists_second_run (m : KernelMount) : ∃ run, m.runs[1]? = some run := by
  have hroot := m.root_runs_pos
  have hpoint : 0 < (Text.runsOf isBare m.mountPoint.text.toList).length :=
    List.length_pos_iff.mpr
      (Text.runsOf_ne_nil (List.mem_of_head? m.mountPoint_start) (by decide))
  have hlength : 1 < m.runs.length := by
    rw [runs, List.length_append]
    omega
  exact ⟨_, List.getElem?_eq_getElem hlength⟩

/-- The fifth word of a line is the second thing that is left of the two paths. -/
theorem words_leading (m : KernelMount) {run : List Char} (hrun : m.runs[1]? = some run) :
    (Text.words (String.ofList ([' '].intercalate (m.leading.map String.toList))))[4]? =
      some (escape (String.ofList run)) := by
  have hruns : (m.leading.map String.toList).flatMap (Text.runsOf Text.isBlank) =
      (toString m.number).toList :: (toString m.parent).toList :: m.device.toList ::
        (m.runs.map (·.flatMap escapeChar) ++
          ((m.options :: m.tags).map String.toList).flatMap (Text.runsOf Text.isBlank)) := by
    simp only [leading, List.cons_append, List.nil_append, List.map_cons, List.flatMap_cons,
      (isWord_toString _).1.runsOf_eq, (isWord_device m).1.runsOf_eq, runsOf_escape, runs,
      List.map_append, List.append_assoc]
  have hsecond : 1 < (m.runs.map (·.flatMap escapeChar)).length := by
    rw [List.length_map]
    exact (List.getElem?_eq_some_iff.mp hrun).1
  rw [Text.words_ofList, Text.runsOf_intercalate (by decide), hruns, List.getElem?_map,
    List.getElem?_cons_succ, List.getElem?_cons_succ, List.getElem?_cons_succ,
    List.getElem?_append_left hsecond, List.getElem?_map, hrun]
  simp [escape]

theorem words_trailing (m : KernelMount) :
    Text.words (String.ofList ([' '].intercalate (m.trailing.map String.toList))) = m.trailing := by
  rw [Text.words_ofList, Text.runsOf_intercalate (by decide), trailing]
  simp [m.kind_word.runsOf_eq, m.source_word.runsOf_eq, m.superOptions_word.runsOf_eq]

theorem ofLine_line {run : List Char} (hrun : m.runs[1]? = some run) :
    MountEntry.ofLine m.line = some ⟨⟨String.ofList run⟩, m.kind, m.source⟩ := by
  have hcut : Text.cutAtList [' ', '-', ' '] m.line.toList =
      some ([' '].intercalate (m.leading.map String.toList),
        [' '].intercalate (m.trailing.map String.toList)) := by
    rw [toList_line]
    refine MountEntry.cutAtList_intercalate (by simp [leading]) ?_ _
    intro f hf
    obtain ⟨field, hfield, rfl⟩ := List.mem_map.mp hf
    obtain ⟨hspace, -, hdash⟩ := leading_field m field hfield
    exact ⟨hspace, fun h => hdash (String.toList_inj.mp h)⟩
  rw [MountEntry.ofLine, hcut]
  simp only [Option.bind_eq_bind, Option.bind_some, words_leading m hrun, words_trailing,
    MountEntry.unescapeField_escape]
  rfl

/-- The mount point itself is read exactly if nothing in the paths ends a field. -/
theorem legible_iff {run : List Char} (hrun : m.runs[1]? = some run) :
    run = m.mountPoint.text.toList ↔ m.Legible := by
  cases hroot : (Text.runsOf isBare m.root.toList)[1]? with
  | some part =>
      -- the root comes apart, and what is read is the second part of it
      have hpart : m.runs[1]? = some part := by
        rw [runs, List.getElem?_append_left (List.getElem?_eq_some_iff.mp hroot).1, hroot]
      obtain rfl : part = run := Option.some.inj (hpart.symm.trans hrun)
      have hbare := Text.eq_false_of_mem_runsOf (List.mem_of_getElem? hroot)
      constructor
      · intro hsame
        refine ⟨hsame ▸ hbare, fun other hother => ?_⟩
        rw [hroot] at hother
        rw [← Option.some.inj hother, hsame]
      · intro hlegible
        exact hlegible.root_whole part hroot
  | none =>
      -- one part is left of the root, and what is read is the first part of the mount point
      have hone : (Text.runsOf isBare m.root.toList).length = 1 := by
        have hpos := m.root_runs_pos
        have hmost := List.getElem?_eq_none_iff.mp hroot
        omega
      have hfirst : (Text.runsOf isBare m.mountPoint.text.toList)[0]? = some run := by
        rw [runs, List.getElem?_append_right (by omega), hone] at hrun
        exact hrun
      constructor
      · intro hsame
        refine ⟨hsame ▸ Text.eq_false_of_mem_runsOf (List.mem_of_getElem? hfirst), ?_⟩
        rw [hroot]
        exact nofun
      · intro hlegible
        have hpoint : m.mountPoint.text.toList ≠ [] :=
          List.ne_nil_of_mem (List.mem_of_head? m.mountPoint_start)
        rw [Text.runsOf_of_forall hpoint hlegible.mountPoint_whole] at hfirst
        exact (Option.some.inj hfirst).symm

theorem legible_of_forall (hroot : ∀ c ∈ m.root.toList, isBare c = false)
    (hpoint : ∀ c ∈ m.mountPoint.text.toList, isBare c = false) : m.Legible := by
  refine ⟨hpoint, fun part hpart => ?_⟩
  have hne : m.root.toList ≠ [] := by
    obtain ⟨c, hstart, -⟩ := m.root_start
    exact List.ne_nil_of_mem (List.mem_of_head? hstart)
  rw [Text.runsOf_of_forall hne hroot] at hpart
  cases hpart

/-! ### What is read from a table -/

theorem feed_not_mem_line (m : KernelMount) : '\n' ∉ m.line.toList := by
  have hword : ∀ s, IsWord s → '\n' ∉ s.toList := fun s hs hmem =>
    absurd (hs.2 _ hmem) (by decide)
  have hfield : ∀ f ∈ m.leading ++ "-" :: m.trailing, '\n' ∉ f.toList := by
    simp only [trailing, List.forall_mem_append, List.forall_mem_cons]
    exact ⟨fun f hf => (leading_field m f hf).2.1, by decide, hword _ m.kind_word,
      hword _ m.source_word, hword _ m.superOptions_word, nofun⟩
  intro hmem
  rw [line, Text.join, String.toList_intercalate] at hmem
  rcases Text.mem_of_mem_intercalate hmem with hsep | ⟨chars, hchars, hfeed⟩
  · exact absurd hsep (by decide)
  · obtain ⟨f, hf, rfl⟩ := List.mem_map.mp hchars
    exact hfield f hf hfeed

/-- A line ends with a word, so that nothing is taken from its end. -/
theorem getLast?_line (m : KernelMount) : m.line.toList.getLast? ≠ some '\r' := by
  obtain ⟨hne, hblank⟩ := m.superOptions_word
  have hend : ∃ front, m.line.toList = front ++ m.superOptions.toList := by
    rw [toList_line, trailing]
    simp only [List.map_cons, List.map_nil, List.intercalate_cons_cons, List.intercalate_singleton,
      ← List.append_assoc, ← List.cons_append]
    exact ⟨_, rfl⟩
  obtain ⟨front, hline⟩ := hend
  rw [hline, List.getLast?_append_of_ne_nil _ (by simpa using hne)]
  intro hlast
  exact absurd (hblank _ (List.mem_of_getLast? hlast)) (by decide)

theorem lines_table (ms : List KernelMount) : Text.lines (table ms) = ms.map line := by
  have hlines : ∀ l ∈ ms.map line, '\n' ∉ l.toList ∧ l.toList.getLast? ≠ some '\r' := by
    intro l hl
    obtain ⟨m, -, rfl⟩ := List.mem_map.mp hl
    exact ⟨feed_not_mem_line m, getLast?_line m⟩
  have htable : table ms = Text.join "" ((ms.map line).map (· ++ "\n")) := by
    rw [table, List.map_map]
    rfl
  rw [htable, Text.lines_join hlines]

end KernelMount

namespace MountEntry

open KernelMount

theorem parse_table (ms : List KernelMount) :
    parse (table ms) = (ms.map line).filterMap ofLine := by
  rw [parse, lines_table]

/-- A line of the kernel is read as one mount. -/
theorem exists_ofLine_line (m : KernelMount) : ∃ e, ofLine m.line = some e ∧
    e.kind = m.kind ∧ e.source = m.source ∧ m.runs[1]? = some e.mountPoint.text.toList ∧
      (e.mountPoint = m.mountPoint ↔ m.Legible) := by
  obtain ⟨run, hrun⟩ := m.exists_second_run
  refine ⟨_, ofLine_line hrun, rfl, rfl, by simpa using hrun, ?_⟩
  have hpath : (⟨String.ofList run⟩ : Path) = m.mountPoint ↔ run = m.mountPoint.text.toList := by
    rw [Path.mk.injEq, ← String.toList_inj, String.toList_ofList]
  exact hpath.trans (legible_iff hrun)

/-- Of a table that the kernel writes, one mount is read for each line, in order, with its
type and its source.  Its mount point is the second thing that white space leaves of the
root and the mount point.  So the mounts are read as they are if and only if no path holds
a blank that the kernel does not escape; a root that comes apart is harmless where it
happens to give the mount point. -/
theorem kernel_table_read_iff (ms : List KernelMount) :
    List.Forall₂ (fun m e => e.kind = m.kind ∧ e.source = m.source ∧
        m.runs[1]? = some e.mountPoint.text.toList ∧ (e.mountPoint = m.mountPoint ↔ m.Legible))
      ms (parse (table ms)) ∧
      (parse (table ms) = ms.map entry ↔ ∀ m ∈ ms, m.Legible) := by
  rw [parse_table]
  induction ms with
  | nil => exact ⟨.nil, by simp⟩
  | cons m rest ih =>
      obtain ⟨hrest, hall⟩ := ih
      obtain ⟨e, he, hkind, hsource, hseen, hpoint⟩ := exists_ofLine_line m
      have hentry : e = m.entry ↔ m.Legible := by
        rw [← hpoint, entry, ← hkind, ← hsource]
        exact ⟨congrArg mountPoint, fun h => by rw [← h]⟩
      rw [List.map_cons, List.filterMap_cons_some he]
      refine ⟨.cons ⟨hkind, hsource, hseen, hpoint⟩ hrest, ?_⟩
      rw [List.map_cons, List.cons.injEq, List.forall_mem_cons, hentry, hall]

/-! ## Three mounts -/

/-- Mounts of which one has all that is escaped in its path, before digits and at the end, and
one is of a namespace. -/
def threeMounts : List KernelMount := [
  { number := 22, parent := 1, major := 0, minor := 21, root := "/", mountPoint := ⟨"/proc"⟩,
    options := "rw,nosuid", tags := [], kind := "proc", source := "proc", superOptions := "rw",
    root_start := ⟨'/', by decide, by decide⟩ },
  { number := 40, parent := 22, major := 8, minor := 3, root := "/a - b",
    mountPoint := ⟨"/mnt/c d\t12\\134\n"⟩, options := "rw", tags := ["shared:20", "master:1"],
    kind := "autofs", source := "auto.misc", superOptions := "rw,fd=33",
    root_start := ⟨'/', by decide, by decide⟩ },
  { number := 41, parent := 22, major := 0, minor := 4, root := "net:[4026531840]",
    mountPoint := ⟨"/run/netns/x"⟩, options := "rw", tags := ["-x"], kind := "nsfs",
    source := "nsfs", superOptions := "rw", root_start := ⟨'n', by decide, by decide⟩ }]

theorem kernel_table_read_iff_threeMounts :
    table threeMounts =
        "22 1 0:21 / /proc rw,nosuid - proc proc rw\n" ++
        "40 22 8:3 /a\\040-\\040b /mnt/c\\040d\\01112\\134134\\012 rw shared:20 master:1 - " ++
          "autofs auto.misc rw,fd=33\n" ++
        "41 22 0:4 net:[4026531840] /run/netns/x rw -x - nsfs nsfs rw\n" ∧
      parse (table threeMounts) = [⟨⟨"/proc"⟩, "proc", "proc"⟩,
        ⟨⟨"/mnt/c d\t12\\134\n"⟩, "autofs", "auto.misc"⟩, ⟨⟨"/run/netns/x"⟩, "nsfs", "nsfs"⟩] := by
  have hlegible : ∀ m ∈ threeMounts, m.Legible := by
    have hplain : ∀ m ∈ threeMounts, (m.root.toList.all fun c => !isBare c) = true ∧
        (m.mountPoint.text.toList.all fun c => !isBare c) = true := by decide +kernel
    simp only [List.all_eq_true, Bool.not_eq_true'] at hplain
    exact fun m hm => legible_of_forall (hplain m hm).1 (hplain m hm).2
  exact ⟨by decide +kernel, (kernel_table_read_iff threeMounts).2.mpr hlegible⟩

/-- An automatic mount with a blank in its path that the kernel does not escape. -/
def noBreakMount : KernelMount where
  number := 41
  parent := 22
  major := 0
  minor := 36
  root := "/"
  mountPoint := ⟨"/mnt/a\u00a0b"⟩
  options := "rw"
  tags := []
  kind := "autofs"
  source := "auto.misc"
  superOptions := "rw"
  root_start := ⟨'/', by decide, by decide⟩

/-- The mount point that is read is another one. -/
theorem mount_point_cut_short :
    table [noBreakMount] = "41 22 0:36 / /mnt/a\u00a0b rw - autofs auto.misc rw\n" ∧
      parse (table [noBreakMount]) = [⟨⟨"/mnt/a"⟩, "autofs", "auto.misc"⟩] ∧
      parse (table [noBreakMount]) ≠ [noBreakMount].map entry := by
  decide +kernel

end MountEntry
end ContainerLaunch
