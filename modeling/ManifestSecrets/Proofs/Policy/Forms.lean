import ManifestSecrets.Proofs.Policy

set_option autoImplicit false

namespace ManifestSecrets

open Placeholder

namespace Tree

inductive Displays : Tree → String → Prop
  | text (s : String) : Displays (.text s) s
  | number (n : Number) : Displays (.number n) n.display
  | yes : Displays (.bool true) "true"
  | no : Displays (.bool false) "false"

inductive Textless : Tree → Prop
  | null : Textless .null
  | sequence (items : List Tree) : Textless (.sequence items)
  | mapping (entries : List (String × Tree)) : Textless (.mapping entries)

theorem text_of_displays {v : Tree} {t : String} (shown : v.Displays t) : Policy.text? v = some t := by
  cases shown <;> rfl

theorem text_of_textless {v : Tree} (textless : v.Textless) : Policy.text? v = .none := by
  cases textless <;> rfl

theorem displays_or_textless (secret : Json) : (∃ t, (ofJson secret).Displays t) ∨ (ofJson secret).Textless := by
  cases secret with
  | null => exact .inr .null
  | bool b =>
    cases b with
    | true => exact .inl ⟨_, .yes⟩
    | false => exact .inl ⟨_, .no⟩
  | number n => exact .inl ⟨_, .number n⟩
  | text s => exact .inl ⟨_, .text s⟩
  | array items => exact .inr (.sequence _)
  | object fields => exact .inr (.mapping _)

theorem displays_inserted (secret : Json) (t : String) (shown : (ofJson secret).Displays t) :
    insertedText secret = t := by
  cases secret with
  | bool b => cases b <;> cases shown <;> rfl
  | number n => cases shown; rfl
  | text s => cases shown; rfl
  | null => cases shown
  | array items => cases shown
  | object fields => cases shown

end Tree

namespace Policy

theorem as_text_displayed (shape : String → Tree) (key value : String) (r : Resolution) (t : String)
    (shown : r.value.Displays t) : asText shape key value r = ⟨shape t, r.errors⟩ := by
  rw [asText, Tree.text_of_displays shown]

theorem as_text_refused (shape : String → Tree) (key value : String) (r : Resolution) (textless : r.value.Textless) :
    asText shape key value r =
      ⟨.text value, r.errors ++ [.unsupportedValue key (fieldName value) r.value.typeName]⟩ := by
  rw [asText, Tree.text_of_textless textless]

theorem resolved_displays_or_textless (key value : String) (secrets : SecretMap) :
    (∃ t, (resolve key value secrets).value.Displays t) ∨ (resolve key value secrets).value.Textless := by
  rcases whole_or_partial secrets (cut value.toList) with ⟨secret, whole⟩ | others
  · rw [resolve_whole key value secrets secret whole]
    exact Tree.displays_or_textless secret
  · rw [resolve_partial key value secrets others]
    exact .inl ⟨_, .text _⟩

theorem whole_of_textless (key value : String) (secrets : SecretMap)
    (textless : (resolve key value secrets).value.Textless) : ∃ secret, Whole secrets (cut value.toList) secret := by
  rcases whole_or_partial secrets (cut value.toList) with whole | others
  · exact whole
  · rw [resolve_partial key value secrets others] at textless
    cases textless

-- A token among other pieces is never the whole field, so the pieces are written one after the other.
theorem resolve_embedded (key longer : String) (secrets : SecretMap) (inner : List Char) (before after : List Piece)
    (pieces : cut longer.toList = before ++ .token inner :: after) (more : before ++ after ≠ []) :
    (resolve key longer secrets).value =
      .text (String.join (before.map (Piece.replaced secrets)) ++ (Piece.token inner).replaced secrets ++
        String.join (after.map (Piece.replaced secrets))) := by
  have others : ∀ secret, ¬ Whole secrets (cut longer.toList) secret := by
    rintro secret ⟨-, sole, n, same, -⟩
    rw [pieces] at same
    have length := congrArg List.length same
    have positive : (before ++ after).length ≠ 0 := fun zero => more (List.length_eq_zero_iff.mp zero)
    simp only [List.length_append, List.length_cons, List.length_nil] at length positive
    omega
  rw [resolve_partial key longer secrets others, pieces, List.map_append, List.map_cons]
  simp [String.join_append, String.join_cons, String.append_assoc]

-- The name that is trimmed off the whole field is the one that was looked up.
theorem refused_named (key value : String) (secrets : SecretMap) (textless : (resolve key value secrets).value.Textless) :
    ∃ inner n secret, cut value.toList = [.token inner] ∧ Names inner n ∧ KeyMap.find? n secrets = some secret ∧
      (resolve key value secrets).value = .ofJson secret ∧ fieldName value = n := by
  obtain ⟨secret, whole⟩ := whole_of_textless key value secrets textless
  have resolved := resolve_whole key value secrets secret whole
  obtain ⟨-, inner, n, sole, named, found⟩ := whole
  have trimmed : fieldName value = n := (field_name_sole value inner sole).trans ((names_iff inner n).mp named)
  exact ⟨inner, n, secret, sole, named, found, by rw [resolved], trimmed⟩

theorem sole_displays (key value : String) (secrets : SecretMap) (inner : List Char) (n : String) (secret : Json)
    (sole : cut value.toList = [.token inner]) (named : Names inner n) (found : KeyMap.find? n secrets = some secret)
    (scalar : (∃ number, secret = .number number) ∨ ∃ b, secret = .bool b) :
    ∃ t, (resolve key value secrets).value.Displays t ∧ (Piece.token inner).replaced secrets = t := by
  have other : ∀ s, secret ≠ .text s := by
    rcases scalar with ⟨_, rfl⟩ | ⟨_, rfl⟩ <;> simp
  have shows : ∃ t, (Tree.ofJson secret).Displays t := by
    rcases scalar with ⟨number, rfl⟩ | ⟨b, rfl⟩
    · exact ⟨_, .number number⟩
    · cases b with
      | true => exact ⟨_, .yes⟩
      | false => exact ⟨_, .no⟩
  obtain ⟨t, shown⟩ := shows
  rw [resolve_whole key value secrets secret ⟨other, inner, n, sole, named, found⟩]
  rw [← (names_iff inner n).mp named] at found
  exact ⟨t, shown, (replaced_known secrets inner secret found).trans (Tree.displays_inserted secret t shown)⟩

theorem replace_forms (key value : String) (secrets : SecretMap) :
    let resolved := Policy.generic.replace key value secrets
    ((∃ t, resolved.value.Displays t) ∨ resolved.value.Textless) ∧
      (∀ t, resolved.value.Displays t →
        Policy.string.replace key value secrets = ⟨.text t, resolved.errors⟩ ∧
          Policy.secret.replace key value secrets = ⟨.bytes (Text.utf8 t), resolved.errors⟩) ∧
      (resolved.value.Textless → ∃ inner n secret, cut value.toList = [.token inner] ∧ Names inner n ∧
        KeyMap.find? n secrets = some secret ∧ resolved.value = .ofJson secret ∧
        Policy.string.replace key value secrets =
          ⟨.text value, resolved.errors ++ [.unsupportedValue key n resolved.value.typeName]⟩ ∧
        Policy.secret.replace key value secrets =
          ⟨.text value, resolved.errors ++ [.unsupportedValue key n resolved.value.typeName]⟩) ∧
      (∀ inner n secret, cut value.toList = [.token inner] → Names inner n → KeyMap.find? n secrets = some secret →
        (∃ number, secret = .number number) ∨ (∃ b, secret = .bool b) →
        ∃ t, resolved.value.Displays t ∧
          ∀ otherKey longer before after, cut longer.toList = before ++ .token inner :: after → before ++ after ≠ [] →
            (Policy.generic.replace otherKey longer secrets).value =
              .text (String.join (before.map (Piece.replaced secrets)) ++ t ++
                String.join (after.map (Piece.replaced secrets)))) := by
  intro resolved
  refine ⟨resolved_displays_or_textless key value secrets, ?_, ?_, ?_⟩
  · intro t shown
    exact ⟨as_text_displayed .text key value resolved t shown, as_text_displayed _ key value resolved t shown⟩
  · intro textless
    obtain ⟨inner, n, secret, sole, named, found, same, rfl⟩ := refused_named key value secrets textless
    exact ⟨inner, _, secret, sole, named, found, same, as_text_refused .text key value resolved textless,
      as_text_refused _ key value resolved textless⟩
  · intro inner n secret sole named found scalar
    obtain ⟨t, shown, rfl⟩ := sole_displays key value secrets inner n secret sole named found scalar
    exact ⟨_, shown, fun otherKey longer before after => resolve_embedded otherKey longer secrets inner before after⟩

def scalarSecrets : SecretMap := [("nested", .object [("a", .text "b")]), ("port", .ofUnsigned 8080)]

theorem replace_forms_stray :
    (Policy.generic.replace "port" "<<port>" scalarSecrets).value.Displays "8080" ∧
      Policy.string.replace "port" "<<port>" scalarSecrets = ⟨.text "8080", []⟩ ∧
      Policy.secret.replace "port" "<<port>" scalarSecrets = ⟨.bytes (Text.utf8 "8080"), []⟩ ∧
      (Policy.generic.replace "url" "tcp://db:<<port>/" scalarSecrets).value = .text "tcp://db:8080/" ∧
      (Policy.generic.replace "blob" "<<<nested>" scalarSecrets).value.Textless ∧
      Policy.secret.replace "blob" "<<<nested>" scalarSecrets =
        ⟨.text "<<<nested>", [.unsupportedValue "blob" "nested" "mapping"]⟩ := by
  have display : (Number.integer (.ofUnsigned 8080)).display = "8080" := by decide +kernel
  have portSole : cut "<<port>".toList = [.token "<port".toList] := by decide +kernel
  have portNamed : Names "<port".toList "port" := (names_iff _ _).mpr (by decide +kernel)
  have port : Policy.generic.replace "port" "<<port>" scalarSecrets = ⟨.number (.integer (.ofUnsigned 8080)), []⟩ :=
    resolve_whole "port" "<<port>" scalarSecrets _ ⟨by simp [Json.ofUnsigned], _, _, portSole, portNamed, rfl⟩
  have shown : (Policy.generic.replace "port" "<<port>" scalarSecrets).value.Displays "8080" := by
    rw [port, ← display]
    exact .number _
  have nestedSole : cut "<<<nested>".toList = [.token "<<nested".toList] := by decide +kernel
  have nestedNamed : Names "<<nested".toList "nested" := (names_iff _ _).mpr (by decide +kernel)
  have nested : Policy.generic.replace "blob" "<<<nested>" scalarSecrets = ⟨.mapping [("a", .text "b")], []⟩ :=
    resolve_whole "blob" "<<<nested>" scalarSecrets _ ⟨by simp, _, _, nestedSole, nestedNamed, rfl⟩
  have textless : (Policy.generic.replace "blob" "<<<nested>" scalarSecrets).value.Textless := by
    rw [nested]
    exact .mapping _
  have pieces : cut "tcp://db:<<port>/".toList =
      [.literal "tcp://db:".toList] ++ .token "<port".toList :: [.literal "/".toList] := by decide +kernel
  obtain ⟨-, written, -, embedded⟩ := replace_forms "port" "<<port>" scalarSecrets
  obtain ⟨-, -, refused, -⟩ := replace_forms "blob" "<<<nested>" scalarSecrets
  obtain ⟨string, secret⟩ := written _ shown
  obtain ⟨t, same, longer⟩ := embedded _ _ _ portSole portNamed rfl (.inl ⟨_, rfl⟩)
  rw [port] at string secret same
  cases same
  obtain ⟨inner, n, -, sole, named, -, -, -, bytes⟩ := refused textless
  obtain rfl := Piece.token.inj (List.cons.inj (nestedSole.symm.trans sole)).1
  obtain rfl : "nested" = n := ((names_iff _ _).mp nestedNamed).symm.trans ((names_iff _ _).mp named)
  rw [nested] at bytes
  have url := longer "url" _ _ _ pieces (by simp)
  rw [display] at url
  exact ⟨shown, string, secret, url, textless, bytes⟩

end Policy

end ManifestSecrets
