import ContainerLaunch.IdMap.Basic
import ContainerLaunch.Proofs.Text
/-!
# Maps as texts

The next stage gets a map as a text of lines of three numbers.  Read line by line,
the text gives the map back, and it holds no character zero, so that the end of
the text is found in a buffer.
-/

namespace ContainerLaunch.IdMapLine

/-- The range that a line of a map describes, if it is well formed. -/
def ofLine? (line : String) : Option IdMapLine :=
  match Text.pieces ' ' line with
  | [containerId, hostId, size] => do
    return ⟨← Text.u32? containerId, ← Text.u32? hostId, ← Text.u32? size⟩
  | _ => none

/-- The map that a text describes, line by line. -/
def ofText? (text : String) : Option (List IdMapLine) :=
  (Text.lines text).mapM ofLine?

/-- A line without the line feed at its end. -/
def fields (m : IdMapLine) : List Char :=
  (toString m.containerId).toList ++ ' ' :: ((toString m.hostId).toList ++
    ' ' :: (toString m.size).toList)

theorem toList_line (m : IdMapLine) : m.line.toList = m.fields ++ ['\n'] := by
  have hblank : (toString " ").toList = [' '] := rfl
  have hfeed : (toString "\n").toList = ['\n'] := rfl
  simp [line, fields, hblank, hfeed]

theorem line_eq (m : IdMapLine) : m.line = String.ofList m.fields ++ "\n" := by
  rw [← String.toList_inj, toList_line, String.toList_append, String.toList_ofList]
  rfl

theorem not_mem_fields {m : IdMapLine} {c : Char} (hblank : c ≠ ' ') (hdigit : c.isDigit = false) :
    c ∉ m.fields := by
  have hnumber : ∀ n : UInt32, c ∉ (toString n).toList := by
    intro n
    rw [Text.toList_toString]
    exact Text.not_mem_toDigits hdigit
  simp [fields, hnumber, hblank]

theorem pieces_fields (m : IdMapLine) :
    Text.pieces ' ' (String.ofList m.fields) =
      [toString m.containerId, toString m.hostId, toString m.size] := by
  have hblank : ∀ n : UInt32, ' ' ∉ (toString n).toList := by
    intro n
    rw [Text.toList_toString]
    exact Text.not_mem_toDigits (by decide)
  rw [Text.pieces, String.toList_ofList, fields, Text.piecesOf_append_cons (hblank _),
    Text.piecesOf_append_cons (hblank _), Text.piecesOf_of_not_mem (hblank _)]
  simp

theorem ofLine?_fields (m : IdMapLine) : ofLine? (String.ofList m.fields) = some m := by
  simp [ofLine?, pieces_fields, Text.u32?_toString]

theorem toList_text (ms : List IdMapLine) :
    (text ms).toList = (ms.map fields).flatMap fun l => l ++ ['\n'] := by
  rw [text, Text.toList_join, List.map_map, List.flatMap_map, List.flatMap_def]
  have hlines : ms.map (String.toList ∘ line) = ms.map ((fun l => l ++ ['\n']) ∘ fields) :=
    List.map_congr_left fun m _ => toList_line m
  exact congrArg List.flatten hlines

theorem zero_not_mem_text (ms : List IdMapLine) : '\x00' ∉ (text ms).toList := by
  rw [toList_text, List.mem_flatMap]
  rintro ⟨l, hl, hzero⟩
  obtain ⟨m, -, rfl⟩ := List.mem_map.mp hl
  rcases List.mem_append.mp hzero with hfields | hfeed
  · exact not_mem_fields (by decide) (by decide) hfields
  · simp at hfeed

theorem lines_text (ms : List IdMapLine) :
    Text.lines (text ms) = ms.map fun m => String.ofList m.fields := by
  have hlines : ∀ l ∈ ms.map fun m => String.ofList m.fields,
      '\n' ∉ l.toList ∧ l.toList.getLast? ≠ some '\r' := by
    intro l hl
    obtain ⟨m, -, rfl⟩ := List.mem_map.mp hl
    rw [String.toList_ofList]
    exact ⟨not_mem_fields (by decide) (by decide), fun hlast =>
      not_mem_fields (by decide) (by decide) (List.mem_of_getLast? hlast)⟩
  have htext : text ms =
      Text.join "" ((ms.map fun m => String.ofList m.fields).map (· ++ "\n")) := by
    have hmap : ms.map line = ms.map ((· ++ "\n") ∘ fun m => String.ofList m.fields) :=
      List.map_congr_left fun m _ => line_eq m
    rw [text, List.map_map, hmap]
  rw [htext, Text.lines_join hlines]

/-- A map is read back from its text. -/
theorem ofText?_text (ms : List IdMapLine) : ofText? (text ms) = some ms := by
  rw [ofText?, lines_text]
  induction ms with
  | nil => rfl
  | cons m rest ih => simp [ofLine?_fields, ih]

end ContainerLaunch.IdMapLine
