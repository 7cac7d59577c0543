import Bulletin.Proofs.Card.Reader

/-! Conservation of author text. The ink of a text is what is neither blank nor a list mark. Cutting
into groups and into items keeps the ink, so the sections of a card together with its closing group
have the ink of the description without its code; and the closing list has the ink of its group
as long as the title is repeated nowhere. -/

namespace Bulletin.Card
open Text

/-- The characters that are neither blank nor a list mark. -/
def ink (t : Text) : Text := t.filter fun c => !isBlank c && c != listMark

@[simp] theorem ink_nil : ink [] = [] := rfl
@[simp] theorem ink_append (a b : Text) : ink (a ++ b) = ink a ++ ink b := by simp [ink]
@[simp] theorem ink_mark_cons (t : Text) : ink (listMark :: t) = ink t := by simp [ink]
@[simp] theorem ink_colon_cons (t : Text) : ink (':' :: t) = ':' :: ink t := by
  have h : (!isBlank ':' && ':' != listMark) = true := by decide
  simp [ink, h]

theorem ink_flatten (ts : List Text) : ink ts.flatten = ts.flatMap ink := by
  induction ts with
  | nil => rfl
  | cons t ts ih => simp [ih]

theorem ink_of_allBlank {w : Text} (hw : AllBlank w) : ink w = [] := by
  refine List.filter_eq_nil_iff.mpr fun c hc => ?_
  simp [hw c hc]

theorem ink_trim (t : Text) : ink (trim t) = ink t := by
  obtain ⟨a, b, ha, hb, h⟩ := exists_trim t
  calc ink (trim t) = ink (a ++ trim t ++ b) := by simp [ink_of_allBlank ha, ink_of_allBlank hb]
    _ = ink t := by rw [← h]

theorem ink_items (g : Text) : (items g).flatMap ink = ink g := by
  induction g using split_induction listMark with
  | piece a ha =>
    rw [items_of_unmarked ha]
    split
    case isTrue h => simpa [h] using ink_trim a
    case isFalse => simp [ink_trim]
  | cut a b ha ih =>
    rw [items_append_mark, items_of_unmarked ha]
    split
    case isTrue h => simpa [h, ih] using ink_trim a
    case isFalse => simp [ink_trim, ih]

theorem ink_groups (t : Text) : (groups t).flatMap ink = ink t := by
  have hmap : ∀ ps : List Text, (ps.map trim).flatMap ink = ink ps.flatten := by
    intro ps
    rw [ink_flatten, List.flatMap_map]
    simp [ink_trim]
  rw [groups, hmap]
  exact (pieces_spec t).filter_flatten fun c hc => by simp [hc]

/-- The sections of groups have their ink; only an empty group has no section. -/
theorem ink_sectionsOf (gs : List Text) :
    ((sectionsOf gs).flatMap Section.texts).flatMap ink = gs.flatMap ink := by
  induction gs with
  | nil => rfl
  | cons g gs ih =>
    rw [sectionsOf_cons, List.flatMap_cons, ← ih]
    by_cases hm : listMark ∈ g
    · simp [section?_list hm, Section.texts, ink_items]
    · by_cases hne : g = []
      · simp [hne, section?_nil]
      · simp [section?_paragraph hne hm, Section.texts]

theorem ink_closing_untitled {g : Text} (h : ':' ∉ g.takeWhile (· ≠ '\n')) :
    ink (closingList g).items.flatten = ink g := by
  rw [closingList_untitled h, ink_flatten, ink_items]

/-- A title that no later piece repeats is written once: the title and the items together have the
ink of the group. -/
theorem ink_closing_titled {t rest : Text} (hg : Trimmed (t ++ ':' :: rest)) (hc : ':' ∉ t)
    (hn : '\n' ∉ t) (hm : listMark ∉ t)
    (honce : ∀ s ∈ ((splitOn listMark (t ++ ':' :: rest)).map trim).tail,
      s ≠ [] → ¬ t ++ [':'] <+: s) :
    ink (closingList (t ++ ':' :: rest)).title ++
      ink (closingList (t ++ ':' :: rest)).items.flatten = ink (t ++ ':' :: rest) := by
  obtain ⟨p, ps, hs⟩ := List.exists_cons_of_ne_nil (splitOn_ne_nil listMark rest)
  obtain ⟨hsplit, hitems⟩ := items_titled hg hm hs
  have hkeep : ∀ x ∈ (ps.map trim).filter (· ≠ []), dropEcho (t ++ [':']) x = x := by
    intro x hx
    obtain ⟨hmem, hne⟩ := List.mem_filter.mp hx
    have htail : x ∈ ((splitOn listMark (t ++ ':' :: rest)).map trim).tail := by
      rw [hsplit]
      exact hmem
    exact dropEcho_of_not_repeated (honce x htail (by simpa using hne))
  have hink := ink_items (t ++ ':' :: rest)
  rw [hitems] at hink
  rw [closingList_titled hc hn, hitems, List.map_cons, dropEcho_append, List.map_congr_left hkeep,
    ink_flatten, ← hink]
  simp [ink_trim]

end Bulletin.Card

namespace Bulletin.CardText
open Text Card

/-- Reading a card loses, doubles and moves no author text. The sections have the ink of the
description without its code, followed by that of the last group where this is the closing list.
The closing list has the ink of that group, its title included where the title is cut from the
first piece and repeated by no later one. -/
theorem ink_card (title d : Text) (fallback : CardText) (hd : d ≠ []) :
    let c := (CardText.mk title d).card fallback
    let rest := (takeCode d).2
    let last := (groups rest).getLast (groups_ne_nil rest)
    (c.sections.flatMap Section.texts).flatMap ink ++ (if c.closing = none then [] else ink last) =
        ink rest ∧
      ∀ l, c.closing = some l →
        (':' ∉ last.takeWhile (· ≠ '\n') → ink l.items.flatten = ink last) ∧
        ∀ t after, last = t ++ ':' :: after → ':' ∉ t → '\n' ∉ t → listMark ∉ t →
          (∀ s ∈ ((splitOn listMark last).map trim).tail, s ≠ [] → ¬ t ++ [':'] <+: s) →
          ink l.title ++ ink l.items.flatten = ink last := by
  intro c rest last
  have hcard : c = ofDescription (title.orElse fallback.title) d := by
    obtain ⟨x, d, rfl⟩ := List.exists_cons_of_ne_nil hd
    rfl
  have hcode : takeCode d = ((takeCode d).1, rest) := rfl
  have hlast : groups rest = (groups rest).dropLast ++ [last] :=
    (List.dropLast_append_getLast (groups_ne_nil rest)).symm
  rcases ofDescription_cases (title.orElse fallback.title) d hcode with
    ⟨hread, -⟩ | ⟨gs, g, hg, -, hread⟩
  · rw [hcard, hread]
    refine ⟨?_, by rintro l ⟨⟩⟩
    simp [ink_sectionsOf, ink_groups]
  · obtain rfl : last = g := by
      have h := hlast.symm.trans hg
      exact (List.append_inj' h rfl).2 |> List.singleton_inj.mp
    rw [hcard, hread]
    constructor
    · have hink := ink_groups rest
      rw [hg] at hink
      simpa [ink_sectionsOf] using hink
    · rintro l ⟨⟩
      refine ⟨ink_closing_untitled, ?_⟩
      intro t after ht hc hn hm honce
      have htrim : Trimmed last := trimmed_of_mem_groups (t := rest) (by simp [hg])
      rw [ht] at htrim honce ⊢
      exact ink_closing_titled htrim hc hn hm honce

/-- A description with code and a titled list: its last group has the ink of the list. -/
theorem ink_card_titled :
    let d : Text := "Intro\n\n[CODE]x | y[/CODE]\n\nCodes: A | B"
    d ≠ [] ∧ ∃ l, (CardText.mk [] d).card.closing = some l ∧
      ink l.title ++ ink l.items.flatten = ink "Codes: A | B" := by
  intro d
  have hd : d ≠ [] := by decide
  have hclosing : (CardText.mk [] d).card.closing = some ⟨"Codes:", ["A", "B"]⟩ := by
    decide
  have hlast : (groups (takeCode d).2).getLast (groups_ne_nil _) = "Codes: A | B".toList := by
    decide
  obtain ⟨-, hlist⟩ := ink_card [] d .standard hd
  have hink := (hlist _ hclosing).2 "Codes" " A | B" (by decide) (by decide) (by decide)
    (by decide) (by decide)
  rw [hlast] at hink
  exact ⟨hd, _, hclosing, hink⟩

end Bulletin.CardText
