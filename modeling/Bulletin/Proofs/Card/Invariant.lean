import Bulletin.Proofs.Card.Reader

/-! The invariant of a card that was read from a description. Its texts are clean, its closing list
is titled by a text before a colon, and a bullet list stands last only where the closing list could
not be recognised: after a code segment never, and otherwise only before a break at the end. -/

namespace Bulletin.Card
open Text

structure Invariant (c : Card) (description : Text) : Prop where
  /-- Sections are trimmed, free of list marks and breaks, and hold no empty text. -/
  sections_clean : ∀ s ∈ c.sections, s.Clean
  /-- The code segment is trimmed and does not hold its own end. -/
  code_trimmed : ∀ x ∈ c.code, Trimmed x ∧ ¬ codeEnd <:+: x
  /-- The title of the closing list is one line whose only colon stands at its end. -/
  closing_title : ∀ l ∈ c.closing, '\n' ∉ l.title ∧ ∃ t, l.title = t ++ [':'] ∧ ':' ∉ t
  /-- The items of the closing list are trimmed and free of list marks and breaks. -/
  closing_clean : ∀ l ∈ c.closing, ∀ x ∈ l.items, Clean x
  /-- After a code segment, and with no closing list, the last section is a paragraph. -/
  last_after_code : c.code ≠ none → c.closing = none →
    ∀ s ∈ c.sections.getLast?, ∃ t, s = .paragraph t
  /-- Where a bullet list is last of all, the description ends with a break. -/
  break_after_list : c.code = none → c.closing = none →
    ∀ items, c.sections.getLast? = some (.list items) →
      ∃ a w, description = a ++ w ∧ AllBlank w ∧ 2 ≤ w.count '\n'

theorem defaultClosingTitle_eq : defaultClosingTitle = "List includes".toList ++ [':'] := by decide
theorem newline_notMem_defaultClosingTitle : '\n' ∉ defaultClosingTitle := by decide

theorem closingList_title (g : Text) : '\n' ∉ (closingList g).title ∧
    ∃ t, (closingList g).title = t ++ [':'] ∧ ':' ∉ t := by
  rcases closingList_cases g with ⟨-, h⟩ | ⟨t, rest, -, hc, hn, h⟩
  · rw [h]
    exact ⟨newline_notMem_defaultClosingTitle, _, defaultClosingTitle_eq, by decide⟩
  · rw [h]
    refine ⟨?_, trim t, rfl, fun hm => hc (mem_of_mem_trim hm)⟩
    simpa using fun hm => hn (mem_of_mem_trim hm)

theorem closingList_clean {g x : Text} (hg : BreakFree g) (h : x ∈ (closingList g).items) :
    Clean x := by
  rcases closingList_cases g with ⟨-, hl⟩ | ⟨t, rest, -, -, -, hl⟩
  · rw [hl] at h
    exact clean_of_mem_items hg h
  · rw [hl] at h
    obtain ⟨y, hy, rfl⟩ := List.mem_map.mp h
    exact clean_dropEcho (clean_of_mem_items hg hy)

theorem sectionsOf_clean {t : Text} {gs : List Text} (hsub : ∀ g ∈ gs, g ∈ groups t) :
    ∀ s ∈ sectionsOf gs, s.Clean := by
  intro s hs
  obtain ⟨g, hg, hs⟩ := List.mem_filterMap.mp hs
  have ht := trimmed_of_mem_groups (hsub g hg)
  have hb := breakFree_of_mem_groups (hsub g hg)
  exact clean_of_section? ht hb hs

theorem exists_last_group (t : Text) : ∃ gs g, groups t = gs ++ [g] := by
  rcases List.eq_nil_or_concat (groups t) with hn | ⟨gs, g, hg⟩
  · exact absurd hn (groups_ne_nil t)
  · exact ⟨gs, g, by simpa using hg⟩

/-- If a list is the last section and the last group has no list mark, that group is empty and is
not the only one. -/
theorem last_group_of_list {gs : List Text} {g : Text} {items : List Text}
    (hm : listMark ∉ g) (h : (sectionsOf (gs ++ [g])).getLast? = some (.list items)) :
    g = [] ∧ gs ≠ [] := by
  by_cases hne : g = []
  · refine ⟨hne, ?_⟩
    rintro rfl
    simp [hne, sectionsOf, section?] at h
  · simp [sectionsOf, section?_paragraph hne hm] at h

theorem last_section_of_trimmed {t : Text} {s : Section} (ht : Trimmed t)
    (hm : ∀ gs g, groups t = gs ++ [g] → listMark ∉ g)
    (h : (sectionsOf (groups t)).getLast? = some s) : ∃ p, s = .paragraph p := by
  cases s with
  | paragraph p => exact ⟨p, rfl⟩
  | list items =>
    obtain ⟨gs, g, hg⟩ := exists_last_group t
    rw [hg] at h
    obtain ⟨rfl, hgs⟩ := last_group_of_list (hm gs g hg) h
    by_cases hne : t = []
    · subst hne
      have hlen := congrArg List.length hg
      simp [hgs] at hlen
    · exact absurd hg (last_group_ne_nil ht hne)

/-- A text that ends with a list, though its last group has no list mark, ends with a break. -/
theorem exists_break_of_last_list {t : Text} {items : List Text}
    (hm : ∀ gs g, groups t = gs ++ [g] → listMark ∉ g)
    (h : (sectionsOf (groups t)).getLast? = some (.list items)) :
    ∃ a w, t = a ++ w ∧ AllBlank w ∧ 2 ≤ w.count '\n' := by
  obtain ⟨gs, g, hg⟩ := exists_last_group t
  rw [hg] at h
  obtain ⟨rfl, hgs⟩ := last_group_of_list (hm gs g hg) h
  exact exists_break_of_last_group_nil hg hgs

end Bulletin.Card

namespace Bulletin.CardText
open Text Card

/-- Every card that is read keeps the invariant of the description it is read from, which is the
fallback where no description is given. -/
theorem card_invariant (t fallback : CardText) :
    (t.card fallback).Invariant (t.description.orElse fallback.description) := by
  generalize hd : t.description.orElse fallback.description = d
  generalize ht : t.title.orElse fallback.title = title
  have hcard : t.card fallback = ofDescription title d := by rw [← hd, ← ht]; rfl
  rw [hcard]
  obtain ⟨⟨code, rest⟩, h⟩ : ∃ p, takeCode d = p := ⟨_, rfl⟩
  have hcode : ∀ x ∈ code, Trimmed x ∧ ¬ codeEnd <:+: x := by
    rintro x ⟨⟩
    obtain ⟨hx, hend, -⟩ := trimmed_of_code h
    exact ⟨hx, hend⟩
  rcases ofDescription_cases title d h with ⟨hread, hm⟩ | ⟨gs, g, hg, hm, hread⟩
  · rw [hread]
    refine ⟨sectionsOf_clean fun g hg => hg, hcode, ?_, ?_, ?_, ?_⟩
    · rintro l ⟨⟩
    · rintro l ⟨⟩
    · intro hsome _ s hs
      obtain ⟨x, rfl⟩ := Option.ne_none_iff_exists'.mp hsome
      obtain ⟨-, -, hrest⟩ := trimmed_of_code h
      exact last_section_of_trimmed hrest hm hs
    · rintro ⟨⟩ _ items hlast
      rw [← rest_of_no_code h]
      exact exists_break_of_last_list hm hlast
  · have hmem : g ∈ groups rest := by simp [hg]
    have hsub : ∀ x ∈ gs, x ∈ groups rest := fun x hx => by simp [hg, hx]
    rw [hread]
    refine ⟨sectionsOf_clean hsub, hcode, ?_, ?_, ?_, ?_⟩
    · rintro l ⟨⟩
      exact closingList_title g
    · rintro l ⟨⟩ x hx
      exact closingList_clean (breakFree_of_mem_groups hmem) hx
    · rintro - ⟨⟩
    · rintro - ⟨⟩

end Bulletin.CardText
