import Bulletin.Proofs.Card.Code
import Bulletin.Proofs.Card.Group

/-! What each step of reading a card can do. A description has a code segment or is left as it is,
the last group becomes the closing list or stays a group, and a closing list is titled by the text
before a colon on its first line or by the default. Later proofs use these cases, not the steps. -/

namespace Bulletin.Card
open Text

theorem takeClosing_cases (gs : List Text) :
    (takeClosing gs = (none, gs) ∧ ∀ hs g, gs = hs ++ [g] → listMark ∉ g) ∨
      ∃ hs g, gs = hs ++ [g] ∧ listMark ∈ g ∧ takeClosing gs = (some (closingList g), hs) := by
  rcases List.eq_nil_or_concat gs with rfl | ⟨hs, g, rfl⟩
  · exact Or.inl ⟨rfl, by simp⟩
  · by_cases hm : listMark ∈ g
    · exact Or.inr ⟨hs, g, by simp, hm, by simp [takeClosing, hm]⟩
    · refine Or.inl ⟨by simp [takeClosing, hm], ?_⟩
      intro hs' g' h
      simp_all

theorem takeClosing_eq_some_iff {gs hs : List Text} {l : ClosingList} :
    takeClosing gs = (some l, hs) ↔ ∃ g, gs = hs ++ [g] ∧ listMark ∈ g ∧ l = closingList g := by
  constructor
  · intro h
    rcases takeClosing_cases gs with ⟨hc, -⟩ | ⟨hs', g, hg, hm, hc⟩
    · simp [hc] at h
    · obtain ⟨hl, rfl⟩ := Prod.mk.inj (h.symm.trans hc)
      exact ⟨g, hg, hm, Option.some.inj hl⟩
  · rintro ⟨g, rfl, hm, rfl⟩
    simp [takeClosing, hm]

/-- Groups in front of the others have no part in the closing list. -/
theorem takeClosing_append (gs : List Text) {hs : List Text} (h : hs ≠ []) :
    takeClosing (gs ++ hs) = ((takeClosing hs).1, gs ++ (takeClosing hs).2) := by
  rcases List.eq_nil_or_concat hs with rfl | ⟨ks, g, rfl⟩
  · exact absurd rfl h
  · by_cases hm : listMark ∈ g <;>
      simp [takeClosing, hm, ← List.append_assoc]

def dropEcho (echo item : Text) : Text :=
  if echo <+: item then trim (item.drop echo.length) else item

theorem trimmed_dropEcho {echo item : Text} (h : Trimmed item ∧ listMark ∉ item) :
    Trimmed (dropEcho echo item) ∧ listMark ∉ dropEcho echo item := by
  unfold dropEcho
  split
  · exact ⟨trimmed_trim _, fun hm => h.2 (List.mem_of_mem_drop (mem_of_mem_trim hm))⟩
  · exact h

theorem infix_dropEcho (echo item : Text) : dropEcho echo item <:+: item := by
  unfold dropEcho
  split
  · exact (infix_trim _).trans (List.drop_suffix _ _).isInfix
  · exact List.infix_refl item

theorem clean_dropEcho {echo item : Text} (h : Clean item) : Clean (dropEcho echo item) := by
  obtain ⟨htrim, hm⟩ := trimmed_dropEcho ⟨h.trimmed, h.unmarked⟩
  exact ⟨htrim, hm, h.breakFree.within (infix_dropEcho echo item)⟩

theorem closingList_untitled {g : Text} (h : ':' ∉ g.takeWhile (· ≠ '\n')) :
    closingList g = ⟨defaultClosingTitle, items g⟩ := by
  simp [closingList, (cutLine?_eq_none_iff (by decide)).mpr h]

theorem closingList_titled {t rest : Text} (hc : ':' ∉ t) (hn : '\n' ∉ t) :
    closingList (t ++ ':' :: rest) =
      ⟨trim t ++ [':'], (items (t ++ ':' :: rest)).map (dropEcho (t ++ [':']))⟩ := by
  simp [closingList, cutLine?_append hc hn, dropEcho]

theorem closingList_cases (g : Text) :
    (':' ∉ g.takeWhile (· ≠ '\n') ∧ closingList g = ⟨defaultClosingTitle, items g⟩) ∨
      ∃ t rest, g = t ++ ':' :: rest ∧ ':' ∉ t ∧ '\n' ∉ t ∧
        closingList g = ⟨trim t ++ [':'], (items g).map (dropEcho (t ++ [':']))⟩ := by
  cases h : cutLine? g [':'] with
  | none =>
    have hn := (cutLine?_eq_none_iff (by decide)).mp h
    exact Or.inl ⟨hn, closingList_untitled hn⟩
  | some p =>
    obtain ⟨t, rest⟩ := p
    obtain ⟨rfl, hc, hn⟩ := cutLine?_eq_some h
    exact Or.inr ⟨t, rest, rfl, hc, hn, closingList_titled hc hn⟩

theorem dropEcho_append (echo y : Text) : dropEcho echo (echo ++ y) = trim y := by
  simp [dropEcho]

theorem dropEcho_of_not_repeated {echo item : Text} (h : ¬ echo <+: item) :
    dropEcho echo item = item := by
  simp [dropEcho, h]

/-- The first item of a titled group begins with the title; the others are those of the pieces after
the first list mark. -/
theorem items_titled {t rest p : Text} {ps : List Text} (hg : Trimmed (t ++ ':' :: rest))
    (hm : listMark ∉ t) (hs : splitOn listMark rest = p :: ps) :
    splitOn listMark (t ++ ':' :: rest) = (t ++ ':' :: p) :: ps ∧
      items (t ++ ':' :: rest) = (t ++ [':'] ++ trimEnd p) :: (ps.map trim).filter (· ≠ []) := by
  have hsplit : splitOn listMark (t ++ ':' :: rest) = (t ++ ':' :: p) :: ps := by
    have hm' : listMark ∉ t ++ [':'] := by simpa [listMark] using hm
    simpa using splitOn_append_of_notMem hm' hs
  have htrim : trim (t ++ ':' :: p) = t ++ ':' :: trimEnd p := by
    refine trim_append_cons ⟨?_, by simp; decide⟩
    cases t with
    | nil => simp; decide
    | cons c t => simp [hg.not_blank_head]
  refine ⟨hsplit, ?_⟩
  rw [items, hsplit]
  simp [htrim]

theorem sectionsOf_append (gs hs : List Text) :
    sectionsOf (gs ++ hs) = sectionsOf gs ++ sectionsOf hs := by simp [sectionsOf]

theorem sectionsOf_cons (g : Text) (gs : List Text) :
    sectionsOf (g :: gs) = (section? g).toList ++ sectionsOf gs := by
  cases h : section? g <;> simp [sectionsOf, h]

theorem section?_nil : section? [] = none := by simp [section?]

theorem section?_paragraph {g : Text} (hne : g ≠ []) (hm : listMark ∉ g) : section? g =
    some (.paragraph g) := by simp [section?, hne, hm]

theorem section?_list {g : Text} (hm : listMark ∈ g) : section? g = some (.list (items g)) := by
  have hne : g ≠ [] := List.ne_nil_of_mem hm
  simp [section?, hne, hm]

theorem section?_cases {g : Text} {s : Section} (h : section? g = some s) :
    s = .list (items g) ∨ (g ≠ [] ∧ listMark ∉ g ∧ s = .paragraph g) := by
  by_cases hm : listMark ∈ g
  · rw [section?_list hm] at h
    exact Or.inl (Option.some.inj h).symm
  · by_cases hne : g = []
    · simp [hne, section?_nil] at h
    · rw [section?_paragraph hne hm] at h
      exact Or.inr ⟨hne, hm, (Option.some.inj h).symm⟩

theorem clean_of_section? {g : Text} {s : Section} (ht : Trimmed g) (hb : BreakFree g)
    (h : section? g = some s) : s.Clean := by
  rcases section?_cases h with rfl | ⟨hne, hm, rfl⟩
  · exact fun x hx => ⟨ne_nil_of_mem_items hx, clean_of_mem_items hb hx⟩
  · intro x hx
    obtain rfl : x = g := by simpa [Section.texts] using hx
    exact ⟨hne, ht, hm, hb⟩

/-- A card in its two shapes: all groups are sections, or the last group is the closing list. -/
theorem ofDescription_cases (title d : Text) {code : Option Text} {rest : Text}
    (h : takeCode d = (code, rest)) :
    (ofDescription title d = ⟨title, sectionsOf (groups rest), code, none⟩ ∧
        ∀ gs g, groups rest = gs ++ [g] → listMark ∉ g) ∨
      ∃ gs g, groups rest = gs ++ [g] ∧ listMark ∈ g ∧
        ofDescription title d = ⟨title, sectionsOf gs, code, some (closingList g)⟩ := by
  rcases takeClosing_cases (groups rest) with ⟨hc, hm⟩ | ⟨gs, g, hg, hm, hc⟩
  · exact Or.inl ⟨by simp [ofDescription, h, hc], hm⟩
  · exact Or.inr ⟨gs, g, hg, hm, by simp [ofDescription, h, hc]⟩

end Bulletin.Card
