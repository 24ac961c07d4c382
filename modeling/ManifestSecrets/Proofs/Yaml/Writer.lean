import ManifestSecrets.Yaml.Writer

set_option autoImplicit false

namespace ManifestSecrets.Yaml

def EndsLine (s : String) : Prop := ∃ front b, s.toList = front ++ [b] ∧ isBreak b = true

theorem EndsLine.after {t : String} (ends : EndsLine t) (s : String) : EndsLine (s ++ t) := by
  obtain ⟨front, b, same, broken⟩ := ends
  exact ⟨s.toList ++ front, b, by simp [same], broken⟩

theorem EndsLine.before {s t : String} (ends : EndsLine s) (more : t = "" ∨ EndsLine t) : EndsLine (s ++ t) := by
  rcases more with rfl | more
  · rwa [String.append_empty]
  · exact more.after s

theorem ends_line_newline (s : String) : EndsLine (s ++ "\n") := EndsLine.after ⟨[], '\n', rfl, rfl⟩ s

namespace Style

theorem indent_lines_end (indent : Nat) (double : Char → List Char) (started : Bool) (front : List Char) (b : Char)
    (broken : isBreak b = true) : ∃ lines, indentLines indent double started (front ++ [b]) = lines ++ [b] := by
  induction front generalizing started with
  | nil => exact ⟨[], by simp [indentLines, broken]⟩
  | cons c rest ih =>
    rw [List.cons_append, indentLines]
    split
    next =>
      obtain ⟨lines, same⟩ := ih true
      exact ⟨c :: lines, by rw [same, List.cons_append]⟩
    next =>
      obtain ⟨lines, same⟩ := ih false
      exact ⟨(if started then spaces indent else []) ++ double c ++ lines, by simp [same]⟩

theorem literal_ends (indent : Nat) (cs : List Char) (last : cs.getLast?.any isBreak = true) :
    EndsLine (literalText indent cs) := by
  obtain ⟨b, found, broken⟩ := (Option.any_eq_true _ _).mp last
  obtain ⟨front, rfl⟩ := List.getLast?_eq_some_iff.mp found
  obtain ⟨lines, same⟩ := indent_lines_end indent (fun c => [c]) true front b broken
  exact EndsLine.after ⟨lines, b, by rw [same, String.toList_ofList], broken⟩ _

theorem line_ends (indent : Nat) (s : String) : EndsLine (line indent s) := by
  unfold line
  split
  next => exact ends_line_newline s
  next => exact ends_line_newline _
  next => exact EndsLine.after ⟨['"'], '\n', rfl, rfl⟩ _
  next =>
    dsimp only
    split
    next last => exact literal_ends indent s.toList last
    next => exact ends_line_newline _

end Style

namespace Writer

mutual
theorem value_ends (place : Place) (indent : Nat) (v : Json) : EndsLine (value place indent v) := by
  cases v with
  | null => exact EndsLine.after ⟨"null".toList, '\n', rfl, rfl⟩ _
  | bool b => exact ends_line_newline _
  | number n => exact ends_line_newline _
  | text s => exact (Style.line_ends (indent + 2) s).after _
  | array items =>
    cases items with
    | nil => exact EndsLine.after ⟨"[]".toList, '\n', rfl, rfl⟩ _
    | cons item rest => exact ((value_ends _ _ item).after _).before (items_end _ rest)
  | object entries =>
    cases entries with
    | nil => exact EndsLine.after ⟨"\x7b\x7d".toList, '\n', rfl, rfl⟩ _
    | cons entry rest => exact ((value_ends _ _ entry.2).after _).before (fields_end _ rest)

theorem items_end (indent : Nat) (list : List Json) : items indent list = "" ∨ EndsLine (items indent list) := by
  cases list with
  | nil => exact .inl rfl
  | cons item rest => exact .inr (((value_ends _ _ item).after _).before (items_end indent rest))

theorem fields_end (indent : Nat) (entries : List (String × Json)) :
    fields indent entries = "" ∨ EndsLine (fields indent entries) := by
  cases entries with
  | nil => exact .inl rfl
  | cons entry rest => exact .inr (((value_ends _ _ entry.2).after _).before (fields_end indent rest))
end

end Writer

theorem write_ends (v : Json) : EndsLine (write v) := Writer.value_ends .top 0 v

end ManifestSecrets.Yaml
