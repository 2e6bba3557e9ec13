import IntervalRules.Text.Split

/-!
What splitting does. The parts of a text have no separator in them, and with the separator between
them they are the text; both together determine them (`split_eq_iff`). A text is also split in two
where a test of its characters first fails (`takeWhile_front`).
-/

namespace IntervalRules.Text

variable {α β : Type}

section

variable [DecidableEq α] [DecidableEq β] {separator : α} {cs : List α}

theorem split_cons_ne {separator a : α} (h : a ≠ separator) (cs : List α) :
    ∃ part parts, split separator cs = part :: parts ∧
      split separator (a :: cs) = (a :: part) :: parts := by
  obtain ⟨part, parts, hsplit⟩ := List.exists_cons_of_ne_nil (split_ne_nil separator cs)
  refine ⟨part, parts, hsplit, ?_⟩
  rw [split, if_neg h, hsplit]

/-- What has no separator in it goes to the first part. -/
theorem split_prepend {front : List α} (hfront : separator ∉ front) {part : List α}
    {parts : List (List α)} (hsplit : split separator cs = part :: parts) :
    split separator (front ++ cs) = (front ++ part) :: parts := by
  induction front with
  | nil => exact hsplit
  | cons a front ih =>
    obtain ⟨ha, hfront⟩ := List.ne_and_not_mem_of_not_mem_cons hfront
    rw [List.cons_append, split, if_neg ha.symm, ih hfront]
    rfl

/-- The parts with the separator between them are the text. -/
theorem intercalate_split (separator : α) (cs : List α) :
    [separator].intercalate (split separator cs) = cs := by
  induction cs with
  | nil => rfl
  | cons a cs ih =>
    by_cases ha : a = separator
    · obtain ⟨part, parts, hsplit⟩ := List.exists_cons_of_ne_nil (split_ne_nil separator cs)
      rw [hsplit] at ih
      rw [split, if_pos ha, hsplit, List.intercalate_cons_cons, ih, ha]
      rfl
    · obtain ⟨part, parts, hsplit, hcons⟩ := split_cons_ne ha cs
      rw [hsplit] at ih
      rw [hcons]
      cases parts with
      | nil =>
        rw [List.intercalate_singleton] at ih ⊢
        rw [ih]
      | cons second parts =>
        rw [List.intercalate_cons_cons] at ih ⊢
        rw [List.cons_append, List.cons_append, ih]

theorem split_intercalate {part : List α} {parts : List (List α)}
    (h : ∀ p ∈ part :: parts, separator ∉ p) :
    split separator ([separator].intercalate (part :: parts)) = part :: parts := by
  induction parts generalizing part with
  | nil =>
    rw [List.intercalate_singleton]
    exact split_of_not_mem (h part List.mem_cons_self)
  | cons second parts ih =>
    rw [List.intercalate_cons_cons, List.append_assoc, List.singleton_append,
      split_append (h part List.mem_cons_self), ih fun p hp => h p (List.mem_cons_of_mem part hp)]

theorem not_mem_of_mem_split {part : List α} (h : part ∈ split separator cs) :
    separator ∉ part := by
  induction cs generalizing part with
  | nil => cases List.mem_singleton.1 h; exact List.not_mem_nil
  | cons c cs ih =>
    by_cases hc : c = separator
    · rw [split, if_pos hc] at h
      rcases List.mem_cons.1 h with rfl | h
      · exact List.not_mem_nil
      · exact ih h
    · obtain ⟨first, rest, hsplit, hcons⟩ := split_cons_ne hc cs
      rw [hcons] at h
      rcases List.mem_cons.1 h with rfl | h
      · refine List.not_mem_cons_of_ne_of_not_mem (Ne.symm hc) (ih ?_)
        rw [hsplit]
        exact List.mem_cons_self
      · refine ih ?_
        rw [hsplit]
        exact List.mem_cons_of_mem first h

/-- All but the separators is in the parts. -/
theorem exists_mem_split {a : α} (hmem : a ∈ cs) (ha : a ≠ separator) :
    ∃ part ∈ split separator cs, a ∈ part := by
  induction cs with
  | nil => cases hmem
  | cons c cs ih =>
    by_cases hc : c = separator
    · have hrest : a ∈ cs := List.mem_of_ne_of_mem (hc ▸ ha) hmem
      obtain ⟨part, hpart, hmem⟩ := ih hrest
      rw [split, if_pos hc]
      exact ⟨part, List.mem_cons_of_mem [] hpart, hmem⟩
    · obtain ⟨first, parts, hsplit, hcons⟩ := split_cons_ne hc cs
      rw [hsplit] at ih
      rw [hcons]
      rcases List.mem_cons.1 hmem with rfl | hmem
      · exact ⟨_, List.mem_cons_self, List.mem_cons_self⟩
      · obtain ⟨part, hpart, hmem⟩ := ih hmem
        rcases List.mem_cons.1 hpart with rfl | hpart
        · exact ⟨_, List.mem_cons_self, List.mem_cons_of_mem c hmem⟩
        · exact ⟨part, List.mem_cons_of_mem _ hpart, hmem⟩

/-- The first part goes up to the first separator. -/
theorem exists_split (separator : α) (cs : List α) :
    ∃ parts, split separator cs = cs.takeWhile (· ≠ separator) :: parts := by
  induction cs with
  | nil => exact ⟨[], rfl⟩
  | cons c cs ih =>
    obtain ⟨parts, hparts⟩ := ih
    by_cases hc : c = separator
    · exact ⟨split separator cs, by simp [split, hc]⟩
    · exact ⟨parts, by simp [split, hc, hparts]⟩

/-- The parts are what makes up the text with the separator between them and nowhere else. -/
theorem split_eq_iff {parts : List (List α)} (hne : parts ≠ []) :
    split separator cs = parts ↔
      [separator].intercalate parts = cs ∧ ∀ part ∈ parts, separator ∉ part := by
  constructor
  · rintro rfl
    exact ⟨intercalate_split separator cs, fun _ => not_mem_of_mem_split⟩
  · rintro ⟨rfl, hparts⟩
    obtain ⟨part, parts, rfl⟩ := List.exists_cons_of_ne_nil hne
    exact split_intercalate hparts

theorem split_eq_singleton_iff {part : List α} :
    split separator cs = [part] ↔ part = cs ∧ separator ∉ part := by
  rw [split_eq_iff (List.cons_ne_nil part []), List.intercalate_singleton,
    List.forall_mem_singleton]

/-- There is a last part, and only one way to take it off. -/
theorem exists_split_eq_concat_iff {p : List (List α) → List α → Prop} :
    (∃ parts part, split separator cs = parts ++ [part] ∧ p parts part) ↔
      p (split separator cs).dropLast
        ((split separator cs).getLast (split_ne_nil separator cs)) := by
  constructor
  · rintro ⟨parts, part, hsplit, h⟩
    simpa [hsplit] using h
  · intro h
    exact ⟨_, _, (List.dropLast_concat_getLast _).symm, h⟩

theorem forall_mem_split_iff {p : List α → Prop} :
    (∀ part ∈ split separator cs, p part) ↔
      (∀ part ∈ (split separator cs).dropLast, p part) ∧
        p ((split separator cs).getLast (split_ne_nil separator cs)) := by
  conv => lhs; rw [← List.dropLast_concat_getLast (split_ne_nil separator cs)]
  rw [List.forall_mem_append, List.forall_mem_singleton]

/-- The first part ends at the first separator, and the others are those of what follows it. -/
theorem exists_of_split_eq_cons {part : List α} {parts : List (List α)}
    (h : split separator cs = part :: parts) (hne : parts ≠ []) :
    ∃ rest, cs = part ++ separator :: rest ∧ split separator rest = parts := by
  obtain ⟨rfl, hparts⟩ := (split_eq_iff (List.cons_ne_nil part parts)).1 h
  obtain ⟨second, parts, rfl⟩ := List.exists_cons_of_ne_nil hne
  refine ⟨[separator].intercalate (second :: parts), ?_, ?_⟩
  · rw [List.intercalate_cons_cons, List.append_assoc, List.singleton_append]
  · exact split_intercalate fun p hp => hparts p (List.mem_cons_of_mem part hp)

/-- Splitting commutes with an encoding in which the separator stands for itself alone. -/
theorem split_flatMap {separator' : β} {encode : α → List β}
    (hseparator : encode separator = [separator'])
    (hother : ∀ a, a ≠ separator → separator' ∉ encode a) (cs : List α) :
    split separator' (cs.flatMap encode) = (split separator cs).map (List.flatMap encode) := by
  induction cs with
  | nil => rfl
  | cons a cs ih =>
    rw [List.flatMap_cons]
    by_cases ha : a = separator
    · rw [ha, hseparator, List.singleton_append, split, split, if_pos rfl, if_pos rfl, ih]
      rfl
    · obtain ⟨part, parts, hsplit, hcons⟩ := split_cons_ne ha cs
      rw [hsplit] at ih
      rw [hcons, split_prepend (hother a ha) ih]
      rfl

end

/-- A test that fails where the front ends tells the front from the rest. -/
theorem takeWhile_front {test : α → Bool} {front : List α} (rest : List α)
    (hfront : ∀ a ∈ front, test a = true) (hrest : ∀ a ∈ rest.head?, test a = false) :
    (front ++ rest).takeWhile test = front ∧ (front ++ rest).dropWhile test = rest := by
  rw [List.takeWhile_append_of_pos hfront, List.dropWhile_append_of_pos hfront]
  cases rest with
  | nil => simp
  | cons a rest => simp [hrest a rfl]

theorem flatMap_intercalate {encode : α → List β} {separator : α} {separator' : β}
    (hseparator : encode separator = [separator']) (parts : List (List α)) :
    ([separator].intercalate parts).flatMap encode =
      [separator'].intercalate (parts.map (List.flatMap encode)) := by
  cases parts with
  | nil => rfl
  | cons part parts =>
    induction parts generalizing part with
    | nil => simp
    | cons second parts ih =>
      rw [List.intercalate_cons_cons, List.flatMap_append, List.flatMap_append, ih]
      simp only [List.map_cons, List.intercalate_cons_cons]
      simp [hseparator]

end IntervalRules.Text
