import ManifestSecrets.Manifest.Render
import ManifestSecrets.Proofs.Agreement
import ManifestSecrets.Proofs.Template.Replace

set_option autoImplicit false

namespace ManifestSecrets

variable {a b : SecretMap}

namespace Document

def Mentions (d : Document) (kind : Kind) (n : String) : Prop :=
  ∃ name policy, (name, policy) ∈ kind.subtrees ∧ ∃ path s, d.Holds name path (.text s) ∧ n ∈ Placeholder.tokens s

def AgreeAt (a b : SecretMap) (d : Document) (name : String) : Prop :=
  ∀ path s, (path, s) ∈ d.texts name → AgreeOn (Placeholder.tokens s) a b

theorem agree_at_same (d e : Document) (name : String) (same : d.root.find? name = e.root.find? name)
    (agree : d.AgreeAt a b name) : e.AgreeAt a b name := by
  intro path s text
  rw [texts, ← leaves_same d e name same] at text
  exact agree path s text

theorem walk_subtree_agree (d : Document) (name : String) (policy : Policy) (entries : List (String × Tree))
    (here : d.root.find? name = some (.mapping entries)) (agree : d.AgreeAt a b name) :
    Tree.walkEntries policy a entries = Tree.walkEntries policy b entries := by
  have inside : (Tree.mapping entries).EachLeaf (Tree.AgreeOnLeaf a b) := by
    rintro ⟨path, leaf⟩ member
    cases leaf with
    | text s =>
      refine agree path s ((Tree.mem_texts_of _ path s).mpr ?_)
      rwa [leaves_mapping d name entries here]
    | _ => trivial
  exact Tree.walk_entries_agree policy entries ((Tree.each_leaf_mapping _ entries).mp inside)

end Document

namespace Template

variable (kind : Kind)

theorem walk_subtree_agree (d : Document) (name : String) (policy : Policy) (agree : d.AgreeAt a b name) :
    walkSubtree kind a d name policy = walkSubtree kind b d name policy := by
  unfold walkSubtree
  split
  next entries here => rw [d.walk_subtree_agree name policy entries here agree]
  next => rfl
  next => rfl

-- The sub-trees are apart, so none has a text more or less when its turn comes.
theorem walk_subtrees_agree (d : Document) (subtrees : List (String × Policy))
    (distinct : (subtrees.map Prod.fst).Nodup) (agree : ∀ subtree ∈ subtrees, d.AgreeAt a b subtree.1) :
    walkSubtrees kind a d subtrees = walkSubtrees kind b d subtrees := by
  induction subtrees generalizing d with
  | nil => rfl
  | cons head rest ih =>
    obtain ⟨name, policy⟩ := head
    obtain ⟨fresh, restDistinct⟩ := List.nodup_cons.mp distinct
    obtain ⟨here, others⟩ := List.forall_mem_cons.mp agree
    have step := walk_subtree_agree kind d name policy here
    have document := (walk_subtree_spec kind b d name policy).1
    have later : walkSubtrees kind a (d.filled b name policy) rest =
        walkSubtrees kind b (d.filled b name policy) rest := by
      apply ih _ restDistinct
      intro subtree member
      have other : subtree.1 ≠ name := by
        intro same
        exact fresh (List.mem_map.mpr ⟨subtree, member, same⟩)
      have kept := Document.filled_find_other b d name subtree.1 policy other
      exact Document.agree_at_same d _ subtree.1 kept.symm (others subtree member)
    simp only [walkSubtrees, step, document, later]

theorem replace_agree (d : Document) (agree : ∀ subtree ∈ kind.subtrees, d.AgreeAt a b subtree.1) :
    replace { kind, document := d, secrets := b } =
      ({ (replace { kind, document := d, secrets := a }).1 with secrets := b },
        (replace { kind, document := d, secrets := a }).2) := by
  have walked := walk_subtrees_agree kind d kind.subtrees (subtrees_distinct kind) agree
  simp only [replace, walked]
  split <;> rfl

theorem create_cases (d : Document) :
    (∃ kind, d.kind? = some kind.name ∧ ∀ secrets, create d secrets = .ok { kind, document := d, secrets }) ∨
      ∃ e, ∀ secrets, create d secrets = .error e := by
  cases declared : d.kind? with
  | none =>
    refine .inr ⟨.unsupportedKind "<none>", fun secrets => ?_⟩
    simp only [create, declared]
  | some name =>
    cases known : Kind.ofName? name with
    | none =>
      refine .inr ⟨.unsupportedKind name, fun secrets => ?_⟩
      simp only [create, declared, known]
    | some kind =>
      have named : kind.name = name := by simpa using List.find?_some known
      refine .inl ⟨kind, by rw [named], fun secrets => ?_⟩
      simp only [create, declared, known]

end Template

theorem Run.of_except_ok {ε α β : Type} (value : α) (f : α → Run ε β) : (Run.ofExcept (.ok value) >>= f) = f value :=
  rfl

theorem Run.of_except_error {ε α β : Type} (e : ε) (f : α → Run ε β) : (Run.ofExcept (.error e) >>= f) = ⟨[], .error e⟩ :=
  rfl

theorem map_error_ok {ε δ α : Type} (f : ε → δ) (value : α) : (Except.ok value : Except ε α).mapError f = .ok value :=
  rfl

theorem render_undecoded (value : Yaml) (secrets : SecretMap) (e : StructuralError)
    (undecoded : Document.ofYaml value = .error e) : render value secrets = ⟨[], .error (.structural e)⟩ := by
  rw [render, undecoded]
  rfl

theorem render_uncreated (value : Yaml) (secrets : SecretMap) (d : Document) (e : TemplateError)
    (decoded : Document.ofYaml value = .ok d) (refused : Template.create d secrets = .error e) :
    render value secrets = ⟨[], .error e⟩ := by
  rw [render, decoded, map_error_ok, Run.of_except_ok, refused, Run.of_except_error]

theorem render_created (value : Yaml) (secrets : SecretMap) (d : Document) (t : Template)
    (decoded : Document.ofYaml value = .ok d) (created : Template.create d secrets = .ok t) :
    render value secrets =
      Run.andThen ⟨t.createdLog ++ t.replace.2.1, t.replace.2.2⟩ fun _ => .ofExcept t.replace.1.toYaml := by
  rw [render, decoded, map_error_ok, Run.of_except_ok, created, Run.of_except_ok]

theorem render_agree (value : Yaml) (a b : SecretMap)
    (agree : ∀ d kind n, Document.ofYaml value = .ok d → d.kind? = some kind.name → d.Mentions kind n →
      KeyMap.find? n a = KeyMap.find? n b) :
    render value a = render value b := by
  cases decoded : Document.ofYaml value with
  | error e => rw [render_undecoded value a e decoded, render_undecoded value b e decoded]
  | ok d =>
    rcases Template.create_cases d with ⟨kind, declared, created⟩ | ⟨e, refused⟩
    · have ordered := (Document.of_yaml_decoded value d decoded).ordered
      have texts : ∀ subtree ∈ kind.subtrees, d.AgreeAt a b subtree.1 := by
        intro subtree member path s text n token
        have held := (Document.mem_texts_iff d ordered subtree.1 path s).mp text
        exact agree d kind n decoded declared ⟨subtree.1, subtree.2, member, path, s, held, token⟩
      have replaced := Template.replace_agree kind d texts
      rw [render_created value a d _ decoded (created a), render_created value b d _ decoded (created b), replaced]
      rfl
    · rw [render_uncreated value a d e decoded (refused a), render_uncreated value b d e decoded (refused b)]

def motto : Yaml :=
  .mapping [(.text "apiVersion", .text "v1"), (.text "kind", .text "ConfigMap"),
    (.text "metadata", .mapping [(.text "name", .text "<app>")]), (.text "data", .mapping [(.text "motto", .text "<pw>")])]

def mottoDocument : Document :=
  ⟨[("apiVersion", .text "v1"), ("data", .mapping [("motto", .text "<pw>")]), ("kind", .text "ConfigMap"),
    ("metadata", .mapping [("name", .text "<app>")])]⟩

theorem motto_mentions (d : Document) (kind : Kind) (n : String) (decoded : Document.ofYaml motto = .ok d)
    (declared : d.kind? = some kind.name) (mentioned : d.Mentions kind n) : n = "app" ∨ n = "pw" := by
  have ordered := (Document.of_yaml_decoded motto d decoded).ordered
  obtain rfl : mottoDocument = d := Except.ok.inj decoded
  obtain rfl : Kind.configMap = kind := by
    cases kind with
    | configMap => rfl
    | _ => exact absurd declared (by decide)
  obtain ⟨name, policy, member, path, s, held, token⟩ := mentioned
  have text := (Document.mem_texts_iff mottoDocument ordered name path s).mpr held
  have names : Placeholder.tokens "<app>" = ["app"] ∧ Placeholder.tokens "<pw>" = ["pw"] := by decide +kernel
  have texts : mottoDocument.texts "metadata" = [([.key "name"], "<app>")] ∧
      mottoDocument.texts "data" = [([.key "motto"], "<pw>")] := by decide +kernel
  simp only [Kind.subtrees, List.mem_cons, Prod.mk.injEq, List.not_mem_nil, or_false] at member
  rcases member with ⟨rfl, rfl⟩ | ⟨rfl, rfl⟩
  · obtain ⟨-, rfl⟩ := Prod.mk.inj (List.mem_singleton.mp (texts.1 ▸ text))
    exact .inl (List.mem_singleton.mp (names.1 ▸ token))
  · obtain ⟨-, rfl⟩ := Prod.mk.inj (List.mem_singleton.mp (texts.2 ▸ text))
    exact .inr (List.mem_singleton.mp (names.2 ▸ token))

-- The secret of the password names another one, which is not looked up.
theorem render_agree_motto :
    (∀ d kind n, Document.ofYaml motto = .ok d → d.kind? = some kind.name → d.Mentions kind n →
      KeyMap.find? n [("app", Json.text "svc"), ("other", .text "s3cr3t"), ("pw", .text "<other>")] =
        KeyMap.find? n [("app", .text "svc"), ("pw", .text "<other>")]) ∧
      render motto [("app", .text "svc"), ("other", .text "s3cr3t"), ("pw", .text "<other>")] =
        render motto [("app", .text "svc"), ("pw", .text "<other>")] ∧
      (render motto [("app", .text "svc"), ("pw", .text "<other>")]).result.toOption =
        some "apiVersion: v1\nkind: ConfigMap\nmetadata:\n  name: svc\ndata:\n  motto: <other>\n" := by
  have agree : ∀ d kind n, Document.ofYaml motto = .ok d → d.kind? = some kind.name → d.Mentions kind n →
      KeyMap.find? n [("app", Json.text "svc"), ("other", .text "s3cr3t"), ("pw", .text "<other>")] =
        KeyMap.find? n [("app", .text "svc"), ("pw", .text "<other>")] := by
    intro d kind n decoded declared mentioned
    rcases motto_mentions d kind n decoded declared mentioned with rfl | rfl
    · rfl
    · rfl
  exact ⟨agree, render_agree motto _ _ agree, by decide +kernel⟩

end ManifestSecrets
