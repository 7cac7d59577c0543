import Bulletin.Proofs.Card.Reader

/-! Where the texts of a card come from. No step of reading writes a character of its own, except
for the title of a closing list, which ends with a colon and may be the default. -/

namespace Bulletin.Card
open Text

def texts (c : Card) : List Text :=
  c.title :: c.sections.flatMap Section.texts ++ c.code.toList ++
    c.closing.toList.flatMap fun l => l.title :: l.items

theorem mem_texts_iff {c : Card} {x : Text} : x ∈ c.texts ↔ x = c.title ∨
    (∃ s ∈ c.sections, x ∈ s.texts) ∨ c.code = some x ∨
      ∃ l, c.closing = some l ∧ (x = l.title ∨ x ∈ l.items) := by
  simp only [texts, List.mem_append, List.mem_cons, List.mem_flatMap, Option.mem_toList,
    or_assoc]

theorem mem_of_mem_takeCode {d rest : Text} {code : Option Text} {c : Char}
    (h : takeCode d = (code, rest)) : (c ∈ rest → c ∈ d) ∧ ∀ x ∈ code, c ∈ x → c ∈ d := by
  rcases takeCode_cases d with hc | ⟨before, inner, after, ⟨rfl, -, -, -⟩, hc⟩
  · obtain ⟨rfl, rfl⟩ := Prod.mk.inj (h.symm.trans hc)
    exact ⟨id, by simp⟩
  · obtain ⟨rfl, rfl⟩ := Prod.mk.inj (h.symm.trans hc)
    refine ⟨fun hm => ?_, ?_⟩
    · rcases List.mem_append.mp (mem_of_mem_trim hm) with hm | hm <;> simp [hm]
    · rintro x ⟨⟩ hm
      have hi := mem_of_mem_trim hm
      simp [hi]

theorem Pieces.mem_of_mem {t p : Text} {ps : List Text} {c : Char} (h : Pieces t ps) (hp : p ∈ ps)
    (hc : c ∈ p) : c ∈ t := by
  induction h generalizing p with
  | nil => simp_all
  | cut _ _ _ ih =>
    rcases List.mem_cons.mp hp with rfl | hp
    · simp at hc
    · simp [ih hp hc]
  | char _ _ ih =>
    rcases List.mem_cons.mp hp with rfl | hp
    · rcases List.mem_cons.mp hc with rfl | hc
      · simp
      · exact List.mem_cons_of_mem _ (ih (by simp) hc)
    · exact List.mem_cons_of_mem _ (ih (by simp [hp]) hc)

theorem mem_of_mem_groups {t g : Text} {c : Char} (hg : g ∈ groups t) (hc : c ∈ g) : c ∈ t := by
  obtain ⟨p, hp, rfl⟩ := List.mem_map.mp hg
  exact (pieces_spec t).mem_of_mem hp (mem_of_mem_trim hc)

theorem mem_of_mem_items {g x : Text} {c : Char} (hx : x ∈ items g) (hc : c ∈ x) : c ∈ g := by
  obtain ⟨-, p, hp, rfl⟩ := mem_items.mp hx
  exact (infix_of_mem_splitOn hp).subset (mem_of_mem_trim hc)

theorem mem_of_mem_sectionsOf {gs : List Text} {s : Section} {x : Text} {c : Char}
    (hs : s ∈ sectionsOf gs) (hx : x ∈ s.texts) (hc : c ∈ x) : ∃ g ∈ gs, c ∈ g := by
  obtain ⟨g, hg, hs⟩ := List.mem_filterMap.mp hs
  refine ⟨g, hg, ?_⟩
  rcases section?_cases hs with rfl | ⟨-, -, rfl⟩
  · exact mem_of_mem_items hx hc
  · obtain rfl : x = g := by simpa [Section.texts] using hx
    exact hc

theorem mem_of_mem_closingList {g x : Text} {c : Char}
    (hx : x ∈ (closingList g).title :: (closingList g).items) (hc : c ∈ x) :
    c ∈ g ∨ c ∈ defaultClosingTitle := by
  rcases closingList_cases g with ⟨-, h⟩ | ⟨t, rest, hg, -, -, h⟩
  · rw [h] at hx
    rcases List.mem_cons.mp hx with rfl | hx
    · exact Or.inr hc
    · exact Or.inl (mem_of_mem_items hx hc)
  · rw [h] at hx
    rcases List.mem_cons.mp hx with rfl | hx
    · rcases List.mem_append.mp hc with hc | hc
      · exact Or.inl (by simp [hg, mem_of_mem_trim hc])
      · exact Or.inl (by simp_all)
    · obtain ⟨y, hy, rfl⟩ := List.mem_map.mp hx
      exact Or.inl (mem_of_mem_items hy ((infix_dropEcho _ y).subset hc))

theorem mem_of_mem_texts {title d x : Text} {c : Char} (hx : x ∈ (ofDescription title d).texts)
    (hc : c ∈ x) : c ∈ title ∨ c ∈ d ∨ c ∈ defaultClosingTitle := by
  obtain ⟨⟨code, rest⟩, h⟩ : ∃ p, takeCode d = p := ⟨_, rfl⟩
  obtain ⟨hrest, hcode⟩ := mem_of_mem_takeCode (c := c) h
  have hsections : ∀ gs, (∀ g ∈ gs, g ∈ groups rest) →
      ∀ s ∈ sectionsOf gs, x ∈ s.texts → c ∈ d := by
    intro gs hsub s hs hxs
    obtain ⟨g, hg, hcg⟩ := mem_of_mem_sectionsOf hs hxs hc
    exact hrest (mem_of_mem_groups (hsub g hg) hcg)
  rcases ofDescription_cases title d h with ⟨hread, -⟩ | ⟨gs, g, hg, -, hread⟩
  · rw [hread, mem_texts_iff] at hx
    rcases hx with rfl | ⟨s, hs, hxs⟩ | hx | ⟨l, ⟨⟩, -⟩
    · exact Or.inl hc
    · exact Or.inr (Or.inl (hsections _ (fun g hg => hg) s hs hxs))
    · exact Or.inr (Or.inl (hcode x hx hc))
  · rw [hread, mem_texts_iff] at hx
    rcases hx with rfl | ⟨s, hs, hxs⟩ | hx | ⟨l, ⟨⟩, hx⟩
    · exact Or.inl hc
    · exact Or.inr (Or.inl (hsections gs (fun y hy => by simp [hg, hy]) s hs hxs))
    · exact Or.inr (Or.inl (hcode x hx hc))
    · rcases mem_of_mem_closingList (List.mem_cons.mpr hx) hc with hcg | hcg
      · exact Or.inr (Or.inl (hrest (mem_of_mem_groups (by simp [hg]) hcg)))
      · exact Or.inr (Or.inr hcg)

end Bulletin.Card

namespace Bulletin

theorem Text.mem_of_mem_orElse {a b : Text} {c : Char} (h : c ∈ a.orElse b) : c ∈ a ∨ c ∈ b := by
  unfold Text.orElse at h
  split at h
  · exact Or.inr h
  · exact Or.inl h

/-- A character that stands in none of the texts a card is read from stands in none of the card,
unless it is one of the default title of a closing list. -/
theorem CardText.notMem_card {t fallback : CardText} {c : Char} (ht : c ∉ t.title)
    (hd : c ∉ t.description) (ht' : c ∉ fallback.title) (hd' : c ∉ fallback.description)
    (hc : c ∉ Card.defaultClosingTitle) : ∀ x ∈ (t.card fallback).texts, c ∉ x := by
  intro x hx hm
  rcases Card.mem_of_mem_texts hx hm with h | h | h
  · exact (Text.mem_of_mem_orElse h).elim ht ht'
  · exact (Text.mem_of_mem_orElse h).elim hd hd'
  · exact hc h

end Bulletin
