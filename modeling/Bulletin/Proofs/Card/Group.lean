import Bulletin.Card
import Bulletin.Proofs.Card.Break

/-! The groups of a text and the items of a group. Every group is trimmed and holds no break, every
item is in addition free of list marks, and neither step loses a character that is not blank and
not a list mark. -/

namespace Bulletin.Card
open Text

theorem groups_ne_nil (t : Text) : groups t ≠ [] := by
  simpa [groups] using (pieces_spec t).ne_nil

theorem trimmed_of_mem_groups {t g : Text} (h : g ∈ groups t) : Trimmed g := by
  obtain ⟨p, -, rfl⟩ := List.mem_map.mp h
  exact trimmed_trim p

theorem breakFree_of_mem_groups {t g : Text} (h : g ∈ groups t) : BreakFree g := by
  obtain ⟨p, hp, rfl⟩ := List.mem_map.mp h
  exact ((pieces_spec t).breakFree p hp).within (infix_trim p)

/-- A text that ends with a break has a blank last group, and no other text with two groups has. -/
theorem exists_break_of_last_group_nil {t : Text} {gs : List Text} (h : groups t = gs ++ [[]])
    (hgs : gs ≠ []) : ∃ a w, t = a ++ w ∧ AllBlank w ∧ 2 ≤ w.count '\n' := by
  rcases (pieces_spec t).last with hp | ⟨qs, l, a, w, hp, -, hw, rfl⟩
  · obtain ⟨g, gs, rfl⟩ := List.exists_cons_of_ne_nil hgs
    simp [groups, hp] at h
  · have hl : AllBlank l := by
      have hlast := congrArg List.getLast? h
      simp only [groups, hp, List.map_append, List.getLast?_append] at hlast
      exact trim_eq_nil_iff.mp (by simpa using hlast)
    refine ⟨a, '\n' :: (w ++ '\n' :: l), rfl, by simp [hw, hl], ?_⟩
    simp only [List.count_cons, List.count_append, beq_self_eq_true, if_true]
    omega

theorem last_group_ne_nil {t : Text} {gs : List Text} (ht : Trimmed t) (hne : t ≠ []) :
    groups t ≠ gs ++ [[]] := by
  intro h
  by_cases hgs : gs = []
  · subst hgs
    have hp : ∃ p, pieces 0 t = [p] ∧ AllBlank p := by
      obtain ⟨p, hp, hp'⟩ := List.map_eq_singleton_iff.mp h
      exact ⟨p, hp, trim_eq_nil_iff.mp hp'⟩
    obtain ⟨p, hp, hb⟩ := hp
    rcases (pieces_spec t).last with ht' | ⟨qs, l, a, w, hq, hqs, -⟩
    · obtain rfl : t = p := by simpa [hp] using ht'.symm
      exact hne (ht.eq_nil_of_allBlank hb)
    · obtain ⟨q, qs, rfl⟩ := List.exists_cons_of_ne_nil hqs
      simp [hp] at hq
  · obtain ⟨a, w, rfl, hw, hn⟩ := exists_break_of_last_group_nil h hgs
    rcases List.eq_nil_or_concat w with rfl | ⟨v, c, rfl⟩
    · simp at hn
    · have hc : isBlank c = true := hw c (by simp)
      rw [List.concat_eq_append, ← List.append_assoc] at ht
      simp [ht.not_blank_last] at hc

@[simp] theorem isBlank_listMark : isBlank listMark = false := by decide

theorem not_mark_of_allBlank {w : Text} (hw : AllBlank w) : listMark ∉ w := by
  intro h
  simpa using hw listMark h

theorem mark_mem_trim {t : Text} : listMark ∈ trim t ↔ listMark ∈ t := by
  refine ⟨mem_of_mem_trim, fun hm => ?_⟩
  obtain ⟨a, b, ha, hb, h⟩ := exists_trim t
  rw [h] at hm
  simpa [not_mark_of_allBlank ha, not_mark_of_allBlank hb] using hm

theorem mem_items {g x : Text} :
    x ∈ items g ↔ x ≠ [] ∧ ∃ p ∈ splitOn listMark g, trim p = x := by
  simp [items, and_comm]

theorem items_append_mark (a b : Text) : items (a ++ listMark :: b) = items a ++ items b := by
  simp [items, splitOn_append_mark]

theorem items_of_unmarked {a : Text} (h : listMark ∉ a) :
    items a = if trim a = [] then [] else [trim a] := by
  by_cases ht : trim a = [] <;> simp [items, splitOn_of_notMem h, ht]

theorem items_of_allBlank {w : Text} (hw : AllBlank w) : items w = [] := by
  simp [items_of_unmarked (not_mark_of_allBlank hw), trim_eq_nil_iff.mpr hw]

theorem items_blank_append {a t : Text} (ha : AllBlank a) : items (a ++ t) = items t := by
  have hm := not_mark_of_allBlank ha
  induction t using split_induction listMark with
  | piece t ht =>
    have hat : listMark ∉ a ++ t := by simp [hm, ht]
    rw [items_of_unmarked hat, items_of_unmarked ht, trim_blank_append ha]
  | cut x y hx =>
    have hax : listMark ∉ a ++ x := by simp [hm, hx]
    rw [← List.append_assoc, items_append_mark, items_append_mark, items_of_unmarked hax,
      items_of_unmarked hx, trim_blank_append ha]

theorem items_append_blank {t b : Text} (hb : AllBlank b) : items (t ++ b) = items t := by
  have hm := not_mark_of_allBlank hb
  induction t using split_induction listMark with
  | piece t ht =>
    have htb : listMark ∉ t ++ b := by simp [hm, ht]
    rw [items_of_unmarked htb, items_of_unmarked ht, trim_append_blank hb]
  | cut x y hx ih =>
    rw [List.append_assoc, List.cons_append, items_append_mark, items_append_mark, ih]

theorem items_trim (g : Text) : items (trim g) = items g := by
  obtain ⟨a, b, ha, hb, h⟩ := exists_trim g
  calc items (trim g) = items (a ++ trim g ++ b) := by
        rw [items_append_blank hb, items_blank_append ha]
    _ = items g := by rw [← h]

theorem items_trimEnd (g : Text) : items (trimEnd g) = items g := by
  obtain ⟨b, hb, h⟩ := exists_trimEnd g
  calc items (trimEnd g) = items (trimEnd g ++ b) := (items_append_blank hb).symm
    _ = items g := by rw [← h]

/-- What a text of a card looks like after reading: trimmed, with neither list mark nor break. -/
structure Clean (t : Text) : Prop where
  trimmed : Trimmed t
  unmarked : listMark ∉ t
  breakFree : BreakFree t

theorem clean_iff {t : Text} : Clean t ↔ Trimmed t ∧ listMark ∉ t ∧ BreakFree t :=
  ⟨fun h => ⟨h.trimmed, h.unmarked, h.breakFree⟩, fun ⟨ht, hm, hb⟩ => ⟨ht, hm, hb⟩⟩

instance (t : Text) : Decidable (Clean t) := decidable_of_iff _ clean_iff.symm

theorem trimmed_of_mem_items {g x : Text} (h : x ∈ items g) : Trimmed x ∧ listMark ∉ x := by
  obtain ⟨-, p, hp, rfl⟩ := mem_items.mp h
  exact ⟨trimmed_trim p, fun hm => notMem_of_mem_splitOn hp (mem_of_mem_trim hm)⟩

theorem clean_of_mem_items {g x : Text} (hg : BreakFree g) (h : x ∈ items g) : Clean x := by
  obtain ⟨htrim, hm⟩ := trimmed_of_mem_items h
  obtain ⟨-, p, hp, rfl⟩ := mem_items.mp h
  exact ⟨htrim, hm, (hg.within (infix_of_mem_splitOn hp)).within (infix_trim p)⟩

theorem ne_nil_of_mem_items {g x : Text} (h : x ∈ items g) : x ≠ [] := (mem_items.mp h).1

end Bulletin.Card

namespace Bulletin

def Section.texts : Section → List Text
  | .list items => items
  | .paragraph t => [t]

/-- The texts of a section are clean and none is empty. A list may have no items. -/
def Section.Clean (s : Section) : Prop := ∀ x ∈ s.texts, x ≠ [] ∧ Card.Clean x

instance (s : Section) : Decidable s.Clean :=
  inferInstanceAs (Decidable (∀ x ∈ s.texts, x ≠ [] ∧ Card.Clean x))

end Bulletin
