import ManifestSecrets.Proofs.Document
import Mathlib.Data.List.Dedup

set_option autoImplicit false

namespace ManifestSecrets

namespace Yaml

def keyTexts (entries : List (Yaml × Yaml)) : List String := entries.filterMap fun entry => Tree.keyText? entry.1

def last? (name : String) : List (Yaml × Yaml) → Option Yaml
  | [] => none
  | (key, value) :: rest => (last? name rest).or (if Tree.keyText? key = some name then some value else none)

def child? : PathStep → Yaml → Option Yaml
  | .key name, .mapping entries => last? name entries
  | .index i, .sequence items => items[i]?
  | _, _ => none

def at? : Path → Yaml → Option Yaml
  | [], value => some value
  | step :: rest, value => (child? step value).bind (at? rest)

mutual
-- In no mapping have two keys the same text.
def KeysApart : Yaml → Prop
  | .mapping entries => (keyTexts entries).Nodup ∧ EntriesApart entries
  | .sequence items => ItemsApart items
  | .tagged _ value => KeysApart value
  | _ => True

def ItemsApart : List Yaml → Prop
  | [] => True
  | item :: rest => KeysApart item ∧ ItemsApart rest

def EntriesApart : List (Yaml × Yaml) → Prop
  | [] => True
  | (_, value) :: rest => KeysApart value ∧ EntriesApart rest
end

theorem entries_apart_iff (entries : List (Yaml × Yaml)) :
    EntriesApart entries ↔ ∀ entry ∈ entries, KeysApart entry.2 := by
  induction entries with
  | nil => simp [EntriesApart]
  | cons head rest ih =>
    obtain ⟨key, value⟩ := head
    rw [EntriesApart, List.forall_mem_cons, ih]

theorem key_texts_cons (key value : Yaml) (name : String) (rest : List (Yaml × Yaml))
    (named : Tree.keyText? key = some name) : keyTexts ((key, value) :: rest) = name :: keyTexts rest :=
  List.filterMap_cons_some named

theorem last_none_iff (name : String) (entries : List (Yaml × Yaml)) :
    last? name entries = none ↔ name ∉ keyTexts entries := by
  induction entries with
  | nil => simp [last?, keyTexts]
  | cons head rest ih =>
    obtain ⟨key, value⟩ := head
    rw [last?, Option.or_eq_none_iff, ih]
    cases named : Tree.keyText? key with
    | none => simp [keyTexts, named]
    | some text =>
      rw [key_texts_cons key value text rest named, List.mem_cons, not_or, and_comm]
      by_cases same : text = name
      · simp [same]
      · simp [same, Ne.symm same]

-- Where the texts are apart, each entry is the last one of its text.
theorem last_of_mem (key value : Yaml) (name : String) (entries : List (Yaml × Yaml))
    (apart : (keyTexts entries).Nodup) (member : (key, value) ∈ entries) (named : Tree.keyText? key = some name) :
    last? name entries = some value := by
  induction entries with
  | nil => exact absurd member List.not_mem_nil
  | cons head rest ih =>
    obtain ⟨k, v⟩ := head
    rw [last?]
    rcases List.mem_cons.mp member with same | inRest
    · obtain ⟨rfl, rfl⟩ := Prod.mk.inj same
      rw [key_texts_cons key value name rest named] at apart
      have fresh : last? name rest = none := (last_none_iff name rest).mpr (List.nodup_cons.mp apart).1
      rw [fresh, if_pos named]
      rfl
    · have restApart : (keyTexts rest).Nodup := apart.sublist ((List.sublist_cons_self _ rest).filterMap _)
      rw [ih restApart inRest]
      rfl

end Yaml

namespace Tree

def stepPath (path : String) : PathStep → String
  | .key name => childPath path name
  | .index i => itemPath path i

def placePath (path : String) (place : Path) : String := place.foldl stepPath path

mutual
-- Every mapping has become one with as many entries, and each entry stands there under the text of its key.
def Kept : Yaml → Tree → Prop
  | .mapping entries, .mapping found => found.length = entries.length ∧ EntriesKept entries found
  | .sequence items, .sequence found => ItemsKept items found
  | .mapping _, _ => False
  | .sequence _, _ => False
  | value, t => ofYaml "" value = .ok t

def ItemsKept : List Yaml → List Tree → Prop
  | [], [] => True
  | item :: rest, t :: found => Kept item t ∧ ItemsKept rest found
  | _, _ => False

def EntriesKept : List (Yaml × Yaml) → KeyMap Tree → Prop
  | [], _ => True
  | (key, value) :: rest, found =>
      (∃ name t, keyText? key = some name ∧ KeyMap.find? name found = some t ∧ Kept value t) ∧ EntriesKept rest found
end

theorem entries_kept_iff (entries : List (Yaml × Yaml)) (found : KeyMap Tree) :
    EntriesKept entries found ↔ ∀ entry ∈ entries,
      ∃ name t, keyText? entry.1 = some name ∧ KeyMap.find? name found = some t ∧ Kept entry.2 t := by
  induction entries with
  | nil => simp [EntriesKept]
  | cons head rest ih =>
    obtain ⟨key, value⟩ := head
    rw [EntriesKept, List.forall_mem_cons, ih]

section Loop

variable (path : String)

theorem entries_of_yaml_cons (seen found : KeyMap Tree) (key value : Yaml) (rest : List (Yaml × Yaml))
    (ok : entriesOfYaml path seen ((key, value) :: rest) = .ok found) :
    ∃ name t, keyText? key = some name ∧ ofYaml (childPath path name) value = .ok t ∧
      entriesOfYaml path (seen.insert name t) rest = .ok found := by
  rw [entriesOfYaml] at ok
  cases named : keyText? key with
  | none => simp [named] at ok
  | some name =>
    rw [named] at ok
    obtain ⟨t, decoded, later⟩ := bind_ok ok
    exact ⟨name, t, rfl, decoded, later⟩

theorem key_named (seen found : KeyMap Tree) (entries : List (Yaml × Yaml))
    (ok : entriesOfYaml path seen entries = .ok found) (key value : Yaml) (member : (key, value) ∈ entries) :
    ∃ name, keyText? key = some name := by
  induction entries generalizing seen with
  | nil => exact absurd member List.not_mem_nil
  | cons head rest ih =>
    obtain ⟨name, t, named, -, later⟩ := entries_of_yaml_cons path seen found head.1 head.2 rest ok
    rcases List.mem_cons.mp member with rfl | inRest
    · exact ⟨name, named⟩
    · exact ih _ later inRest

theorem key_texts_length (seen found : KeyMap Tree) (entries : List (Yaml × Yaml))
    (ok : entriesOfYaml path seen entries = .ok found) : (Yaml.keyTexts entries).length = entries.length := by
  induction entries generalizing seen with
  | nil => rfl
  | cons head rest ih =>
    obtain ⟨key, value⟩ := head
    obtain ⟨name, t, named, -, later⟩ := entries_of_yaml_cons path seen found key value rest ok
    rw [Yaml.key_texts_cons key value name rest named, List.length_cons, List.length_cons, ih _ later]

theorem mem_keys_found (name : String) (seen found : KeyMap Tree) (entries : List (Yaml × Yaml))
    (ok : entriesOfYaml path seen entries = .ok found) :
    name ∈ KeyMap.keys found ↔ name ∈ Yaml.keyTexts entries ∨ name ∈ KeyMap.keys seen := by
  induction entries generalizing seen with
  | nil =>
    obtain rfl := Except.ok.inj ok
    simp [Yaml.keyTexts]
  | cons head rest ih =>
    obtain ⟨key, value⟩ := head
    obtain ⟨text, t, named, -, later⟩ := entries_of_yaml_cons path seen found key value rest ok
    rw [ih _ later, KeyMap.mem_keys_insert, Yaml.key_texts_cons key value text rest named, List.mem_cons]
    exact or_left_comm.trans or_assoc.symm

theorem find_found (name : String) (seen found : KeyMap Tree) (entries : List (Yaml × Yaml))
    (ok : entriesOfYaml path seen entries = .ok found) :
    (∀ value, Yaml.last? name entries = some value →
      ∃ t, KeyMap.find? name found = some t ∧ ofYaml (childPath path name) value = .ok t) ∧
    (Yaml.last? name entries = none → KeyMap.find? name found = KeyMap.find? name seen) := by
  induction entries generalizing seen with
  | nil =>
    obtain rfl := Except.ok.inj ok
    simp [Yaml.last?]
  | cons head rest ih =>
    obtain ⟨key, value⟩ := head
    obtain ⟨text, t, named, decoded, later⟩ := entries_of_yaml_cons path seen found key value rest ok
    obtain ⟨again, kept⟩ := ih _ later
    cases last : Yaml.last? name rest with
    | some other =>
      have whole : Yaml.last? name ((key, value) :: rest) = some other := by rw [Yaml.last?, last, Option.some_or]
      constructor
      · intro lastValue same
        obtain rfl : other = lastValue := Option.some.inj (whole.symm.trans same)
        exact again other last
      · intro absent
        simp [whole] at absent
    | none =>
      have before := kept last
      by_cases here : text = name
      · subst here
        have whole : Yaml.last? text ((key, value) :: rest) = some value := by
          rw [Yaml.last?, last, if_pos named, Option.none_or]
        rw [KeyMap.find_insert_self] at before
        constructor
        · intro lastValue same
          obtain rfl : value = lastValue := Option.some.inj (whole.symm.trans same)
          exact ⟨t, before, decoded⟩
        · intro absent
          simp [whole] at absent
      · have whole : Yaml.last? name ((key, value) :: rest) = none := by
          rw [Yaml.last?, last, if_neg (by simpa [named] using here), Option.none_or]
        rw [KeyMap.find_insert_other text name t seen (Ne.symm here)] at before
        constructor
        · intro lastValue same
          simp [whole] at same
        · exact fun _ => before

end Loop

theorem of_yaml_mapping (path : String) (entries : List (Yaml × Yaml)) (t : Tree)
    (ok : ofYaml path (.mapping entries) = .ok t) :
    ∃ found, t = .mapping found ∧ entriesOfYaml path [] entries = .ok found := by
  rw [ofYaml] at ok
  obtain ⟨found, inside, same⟩ := bind_ok ok
  exact ⟨found, (Except.ok.inj same).symm, inside⟩

theorem of_yaml_sequence (path : String) (items : List Yaml) (t : Tree) (ok : ofYaml path (.sequence items) = .ok t) :
    ∃ found, t = .sequence found ∧ itemsOfYaml path 0 items = .ok found := by
  rw [ofYaml] at ok
  obtain ⟨found, inside, same⟩ := bind_ok ok
  exact ⟨found, (Except.ok.inj same).symm, inside⟩

theorem items_of_yaml_cons (path : String) (i : Nat) (item : Yaml) (rest : List Yaml) (found : List Tree)
    (ok : itemsOfYaml path i (item :: rest) = .ok found) :
    ∃ t later, found = t :: later ∧ ofYaml (itemPath path i) item = .ok t ∧
      itemsOfYaml path (i + 1) rest = .ok later := by
  rw [itemsOfYaml] at ok
  obtain ⟨t, decoded, ok⟩ := bind_ok ok
  obtain ⟨later, laterOk, same⟩ := bind_ok ok
  exact ⟨t, later, (Except.ok.inj same).symm, decoded, laterOk⟩

theorem found_length (path : String) (found : KeyMap Tree) (entries : List (Yaml × Yaml))
    (ok : entriesOfYaml path [] entries = .ok found) : found.length = (Yaml.keyTexts entries).dedup.length := by
  have ordered := (entries_of_yaml_decoded path [] entries found ok trivial (by simp)).1
  have same : (KeyMap.keys found).Perm (Yaml.keyTexts entries).dedup := by
    refine (List.perm_ext_iff_of_nodup (KeyMap.keys_distinct found ordered) (List.nodup_dedup _)).mpr fun name => ?_
    rw [mem_keys_found path name [] found entries ok, List.mem_dedup]
    simp [KeyMap.keys]
  rw [← same.length_eq, KeyMap.keys, List.length_map]

theorem found_length_iff (path : String) (found : KeyMap Tree) (entries : List (Yaml × Yaml))
    (ok : entriesOfYaml path [] entries = .ok found) :
    found.length = entries.length ↔ (Yaml.keyTexts entries).Nodup := by
  have texts := key_texts_length path [] found entries ok
  rw [found_length path found entries ok, ← texts, ← List.dedup_eq_self]
  constructor
  · exact fun same => (List.dedup_sublist _).eq_of_length same
  · exact fun same => congrArg List.length same

theorem entry_found (path : String) (found : KeyMap Tree) (entries : List (Yaml × Yaml))
    (ok : entriesOfYaml path [] entries = .ok found) (apart : (Yaml.keyTexts entries).Nodup) (key value : Yaml)
    (member : (key, value) ∈ entries) :
    ∃ name t, keyText? key = some name ∧ KeyMap.find? name found = some t ∧
      ofYaml (childPath path name) value = .ok t := by
  obtain ⟨name, named⟩ := key_named path [] found entries ok key value member
  have last := Yaml.last_of_mem key value name entries apart member named
  obtain ⟨t, here, decoded⟩ := (find_found path name [] found entries ok).1 value last
  exact ⟨name, t, named, here, decoded⟩

mutual
theorem kept_iff (path : String) (value : Yaml) (t : Tree) (ok : ofYaml path value = .ok t) :
    Kept value t ↔ value.KeysApart := by
  cases value with
  | mapping entries =>
    obtain ⟨found, rfl, inside⟩ := of_yaml_mapping path entries t ok
    rw [Kept, Yaml.KeysApart, found_length_iff path found entries inside, entries_kept_iff, Yaml.entries_apart_iff]
    refine and_congr_right fun apart => forall₂_congr fun entry member => ?_
    obtain ⟨name, t, named, here, decoded⟩ := entry_found path found entries inside apart entry.1 entry.2 member
    have each := entry_kept_iff entries entry member (childPath path name) t decoded
    constructor
    · rintro ⟨other, u, otherNamed, there, kept⟩
      obtain rfl : name = other := Option.some.inj (named.symm.trans otherNamed)
      obtain rfl : t = u := Option.some.inj (here.symm.trans there)
      exact each.mp kept
    · exact fun inner => ⟨name, t, named, here, each.mpr inner⟩
  | sequence items =>
    obtain ⟨found, rfl, inside⟩ := of_yaml_sequence path items t ok
    exact items_kept_iff path 0 items found inside
  | number n =>
    obtain ⟨finite, rfl⟩ := of_yaml_number_ok path n t ok
    simp [Kept, Yaml.KeysApart, of_yaml_number, finite]
  | tagged tag inner => simp [ofYaml] at ok
  | _ => exact iff_of_true ok trivial

theorem items_kept_iff (path : String) (i : Nat) (items : List Yaml) (found : List Tree)
    (ok : itemsOfYaml path i items = .ok found) : ItemsKept items found ↔ Yaml.ItemsApart items := by
  cases items with
  | nil =>
    obtain rfl := Except.ok.inj ok
    exact iff_of_true trivial trivial
  | cons item rest =>
    obtain ⟨t, later, rfl, decoded, laterOk⟩ := items_of_yaml_cons path i item rest found ok
    exact and_congr (kept_iff _ item t decoded) (items_kept_iff path (i + 1) rest later laterOk)

theorem entry_kept_iff (entries : List (Yaml × Yaml)) : ∀ entry ∈ entries, ∀ path t,
    ofYaml path entry.2 = .ok t → (Kept entry.2 t ↔ entry.2.KeysApart) := by
  cases entries with
  | nil => simp
  | cons head rest =>
    obtain ⟨key, value⟩ := head
    exact List.forall_mem_cons.mpr ⟨fun path t => kept_iff path value t, entry_kept_iff rest⟩
end

theorem items_of_yaml_get (path : String) (i j : Nat) (items : List Yaml) (found : List Tree)
    (ok : itemsOfYaml path i items = .ok found) :
    (∀ item, items[j]? = some item → ∃ t, found[j]? = some t ∧ ofYaml (itemPath path (i + j)) item = .ok t) ∧
      (items[j]? = none → found[j]? = none) := by
  induction items generalizing i j found with
  | nil =>
    obtain rfl := Except.ok.inj ok
    simp
  | cons item rest ih =>
    obtain ⟨t, later, rfl, decoded, laterOk⟩ := items_of_yaml_cons path i item rest found ok
    cases j with
    | zero =>
      simp only [List.getElem?_cons_zero, Option.some.injEq, reduceCtorEq, false_implies, and_true]
      rintro _ rfl
      exact ⟨t, rfl, decoded⟩
    | succ j =>
      have shifted : i + (j + 1) = i + 1 + j := by omega
      simpa only [List.getElem?_cons_succ, shifted] using ih (i + 1) j later laterOk

theorem of_yaml_child (path : String) (step : PathStep) (value : Yaml) (t : Tree) (ok : ofYaml path value = .ok t) :
    (∀ child, value.child? step = some child →
      ∃ u, t.child? step = some u ∧ ofYaml (stepPath path step) child = .ok u) ∧
      (value.child? step = none → t.child? step = none) := by
  cases value with
  | mapping entries =>
    obtain ⟨found, rfl, inside⟩ := of_yaml_mapping path entries t ok
    cases step with
    | key name => exact find_found path name [] found entries inside
    | index i => simp [Yaml.child?, child?]
  | sequence items =>
    obtain ⟨found, rfl, inside⟩ := of_yaml_sequence path items t ok
    cases step with
    | key name => simp [Yaml.child?, child?]
    | index i => simpa [Yaml.child?, child?, stepPath] using items_of_yaml_get path 0 i items found inside
  | number n =>
    obtain ⟨-, rfl⟩ := of_yaml_number_ok path n t ok
    simp [Yaml.child?, child?]
  | tagged tag inner => simp [ofYaml] at ok
  | _ =>
    obtain rfl := Except.ok.inj ok
    simp [Yaml.child?, child?]

theorem of_yaml_at (path : String) (place : Path) (value : Yaml) (t : Tree) (ok : ofYaml path value = .ok t) :
    (∀ inner, value.at? place = some inner →
      ∃ u, t.at? place = some u ∧ ofYaml (placePath path place) inner = .ok u) ∧
      (value.at? place = none → t.at? place = none) := by
  induction place generalizing path value t with
  | nil =>
    simp only [Yaml.at?, Option.some.injEq, reduceCtorEq, false_implies, and_true]
    rintro _ rfl
    exact ⟨t, rfl, ok⟩
  | cons step rest ih =>
    obtain ⟨found, absent⟩ := of_yaml_child path step value t ok
    rw [Yaml.at?, at?]
    cases child : value.child? step with
    | none =>
      rw [absent child]
      simp
    | some inner =>
      obtain ⟨u, here, decoded⟩ := found inner child
      rw [here]
      exact ih (stepPath path step) inner u decoded

end Tree

namespace Document

theorem of_yaml_root (value : Yaml) (d : Document) (ok : ofYaml value = .ok d) :
    Tree.ofYaml "" value = .ok (.mapping d.root) := by
  obtain ⟨t, decoded, rooted⟩ := bind_ok ok
  obtain rfl := of_tree_root t d rooted
  exact decoded

theorem decoding_keeps_entries_iff (value : Yaml) (d : Document) (ok : ofYaml value = .ok d) :
    (Tree.Kept value (.mapping d.root) ↔ value.KeysApart) ∧
      ∀ place entries, value.at? place = some (.mapping entries) →
        ∃ found, (Tree.mapping d.root).at? place = some (.mapping found) ∧
          found.length = (Yaml.keyTexts entries).dedup.length ∧
          ∀ name, (∀ last, Yaml.last? name entries = some last → ∃ t, KeyMap.find? name found = some t ∧
              Tree.ofYaml (Tree.childPath (Tree.placePath "" place) name) last = .ok t) ∧
            (name ∉ Yaml.keyTexts entries → KeyMap.find? name found = none) := by
  have root := of_yaml_root value d ok
  refine ⟨Tree.kept_iff "" value _ root, fun place entries here => ?_⟩
  obtain ⟨t, there, decoded⟩ := (Tree.of_yaml_at "" place value _ root).1 _ here
  obtain ⟨found, rfl, inside⟩ := Tree.of_yaml_mapping _ entries t decoded
  refine ⟨found, there, Tree.found_length _ found entries inside, fun name => ?_⟩
  obtain ⟨last, other⟩ := Tree.find_found _ name [] found entries inside
  exact ⟨last, fun absent => other ((Yaml.last_none_iff name entries).mpr absent)⟩

def portKeys : Yaml :=
  .mapping [(.text "kind", .text "Secret"), (.text "data", .mapping [(.number (.integer (.ofUnsigned 8080)), .text "http"),
    (.text "8081", .text "https"), (.bool true, .mapping [(.number (.integer (.ofUnsigned 1)), .null)])])]

def portKeysDocument : Document :=
  ⟨[("data", .mapping [("8080", .text "http"), ("8081", .text "https"), ("true", .mapping [("1", .null)])]),
    ("kind", .text "Secret")]⟩

theorem decoding_keeps_entries_ports :
    ofYaml portKeys = .ok portKeysDocument ∧ portKeys.KeysApart ∧ Tree.Kept portKeys (.mapping portKeysDocument.root) := by
  have ok : ofYaml portKeys = .ok portKeysDocument := rfl
  have apart : portKeys.KeysApart := by
    simp only [portKeys, Yaml.KeysApart, Yaml.EntriesApart, and_true, true_and]
    decide
  exact ⟨ok, apart, (decoding_keeps_entries_iff portKeys portKeysDocument ok).1.mpr apart⟩

def samePort : Yaml :=
  .mapping [(.text "data", .mapping [(.number (.integer (.ofUnsigned 8080)), .text "http"), (.text "8080", .text "https")])]

-- The number and the text of its digits are two keys of YAML, and one key of the document.
theorem number_key_lost :
    ofYaml samePort = .ok ⟨[("data", .mapping [("8080", .text "https")])]⟩ ∧
      ¬ Tree.Kept samePort (.mapping [("data", .mapping [("8080", .text "https")])]) := by
  have root : Tree.ofYaml "" samePort = .ok (.mapping [("data", .mapping [("8080", .text "https")])]) := rfl
  refine ⟨rfl, ?_⟩
  rw [Tree.kept_iff "" _ _ root]
  intro apart
  exact absurd apart.2.1.1 (by decide)

end Document

end ManifestSecrets
