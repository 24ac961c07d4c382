import ManifestSecrets.Text.Classes

set_option autoImplicit false

namespace ManifestSecrets.Text

def Trims (p : Char → Bool) (cs middle : List Char) : Prop :=
  ∃ front back, cs = front ++ middle ++ back ∧ (∀ c ∈ front, p c = true) ∧ (∀ c ∈ back, p c = true) ∧
    (∀ c, middle.head? = some c → p c = false) ∧ (∀ c, middle.getLast? = some c → p c = false)

theorem drop_while_head {α : Type} (p : α → Bool) (cs : List α) (c : α)
    (first : (cs.dropWhile p).head? = some c) : p c = false := by
  have stopped := List.head?_dropWhile_not p cs
  simpa [first] using stopped

theorem drop_while_kept (p : Char → Bool) (cs : List Char)
    (kept : ∀ c, cs.head? = some c → p c = false) : cs.dropWhile p = cs := by
  cases cs with
  | nil => rfl
  | cons c rest => exact List.dropWhile_cons_of_neg (by simp [kept c rfl])

theorem take_while_all {α : Type} (p : α → Bool) (cs : List α) (c : α) (member : c ∈ cs.takeWhile p) :
    p c = true :=
  List.all_eq_true.mp List.all_takeWhile c member

theorem trim_by_trims (p : Char → Bool) (cs : List Char) : Trims p cs (trimBy p cs) := by
  have front : cs.takeWhile p ++ cs.dropWhile p = cs := List.takeWhile_append_dropWhile
  have back : cs.dropWhile p =
      trimBy p cs ++ ((cs.dropWhile p).reverse.takeWhile p).reverse := by
    rw [trimBy, ← List.reverse_append, List.takeWhile_append_dropWhile, List.reverse_reverse]
  refine ⟨cs.takeWhile p, ((cs.dropWhile p).reverse.takeWhile p).reverse, ?_, take_while_all p cs, ?_, ?_, ?_⟩
  · rw [List.append_assoc, ← back, front]
  · intro c member
    exact take_while_all p _ c (List.mem_reverse.mp member)
  · intro c first
    apply drop_while_head p cs
    rw [back, List.head?_append, first, Option.some_or]
  · intro c last
    apply drop_while_head p (cs.dropWhile p).reverse
    rw [← last, trimBy, List.getLast?_reverse]

theorem trims_eq (p : Char → Bool) (cs middle : List Char) (trims : Trims p cs middle) :
    trimBy p cs = middle := by
  obtain ⟨front, back, rfl, frontDropped, backDropped, first, last⟩ := trims
  rw [trimBy, List.append_assoc, List.dropWhile_append_of_pos frontDropped]
  cases middle with
  | nil =>
    have dropped : back.dropWhile p = [] := by
      rw [← List.append_nil back, List.dropWhile_append_of_pos backDropped, List.dropWhile_nil]
    simp [dropped]
  | cons c rest =>
    have kept : (c :: rest ++ back).dropWhile p = c :: rest ++ back :=
      drop_while_kept p _ (fun d same => first d (by simpa using same))
    have reversed : ∀ d ∈ back.reverse, p d = true := fun d member => backDropped d (List.mem_reverse.mp member)
    have ends : (c :: rest).reverse.dropWhile p = (c :: rest).reverse :=
      drop_while_kept p _ (fun d same => last d (by rwa [List.head?_reverse] at same))
    rw [kept, List.reverse_append, List.dropWhile_append_of_pos reversed, ends, List.reverse_reverse]

theorem trim_by_eq_iff (p : Char → Bool) (cs middle : List Char) :
    trimBy p cs = middle ↔ Trims p cs middle :=
  ⟨fun same => same ▸ trim_by_trims p cs, trims_eq p cs middle⟩

theorem trim_by_around (p : Char → Bool) (cs front back : List Char) (frontDropped : ∀ c ∈ front, p c = true)
    (backDropped : ∀ c ∈ back, p c = true) : trimBy p (front ++ cs ++ back) = trimBy p cs := by
  obtain ⟨before, after, same, beforeDropped, afterDropped, kept⟩ := trim_by_trims p cs
  apply trims_eq
  refine ⟨front ++ before, after ++ back, ?_, ?_, ?_, kept⟩
  · calc front ++ cs ++ back = front ++ (before ++ trimBy p cs ++ after) ++ back := by rw [← same]
      _ = front ++ before ++ trimBy p cs ++ (after ++ back) := by simp only [List.append_assoc]
  · intro c member
    exact (List.mem_append.mp member).elim (frontDropped c) (beforeDropped c)
  · intro c member
    exact (List.mem_append.mp member).elim (afterDropped c) (backDropped c)

end ManifestSecrets.Text
