import Bulletin.Proofs.Card.Reader
import Bulletin.Proofs.Card.Run
import Mathlib.Data.List.DropRight

/-! The closing list of a card. A card has one exactly where a list mark stands after the last run
that sets groups apart. Its title and its items are read off that last part of the description: the
items are the pieces between list marks, without a repetition of the title at their start. A piece
that is such a repetition and nothing else leaves an empty item. -/

namespace Bulletin.Card
open Text

/-- What stands after the last run that sets groups apart, or the whole text. -/
def afterBreaks (t : Text) : Text := ((runs t).rtakeWhile fun run => !decide (IsBreak run)).flatten

theorem exists_splitOnP_concat {α : Type} (p : α → Bool) (xs : List α) :
    ∃ ys, xs.splitOnP p = ys ++ [xs.rtakeWhile fun x => !p x] := by
  have hlast : ∀ x ∈ xs.rtakeWhile fun x => !p x, p x = false := by
    intro x hx
    simpa using List.mem_rtakeWhile_imp hx
  have hcut : xs.rdropWhile (fun x => !p x) ++ xs.rtakeWhile (fun x => !p x) = xs :=
    List.rdropWhile_append_rtakeWhile
  rcases List.eq_nil_or_concat (xs.rdropWhile fun x => !p x) with hnil | ⟨us, y, hus⟩
  · have hall : xs.rtakeWhile (fun x => !p x) = xs := by simpa [hnil] using hcut
    refine ⟨[], ?_⟩
    rw [hall] at hlast ⊢
    exact List.splitOnP_eq_singleton hlast
  · have hy : p y = true := by
      have hne : xs.rdropWhile (fun x => !p x) ≠ [] := by simp [hus]
      have h := List.rdropWhile_last_not (fun x => !p x) xs hne
      simpa [hus] using h
    refine ⟨us.splitOnP p, ?_⟩
    calc xs.splitOnP p = (us ++ y :: xs.rtakeWhile fun x => !p x).splitOnP p := by
          congr 1
          simpa [hus] using hcut.symm
      _ = us.splitOnP p ++ [xs.rtakeWhile fun x => !p x] := by
          rw [List.splitOnP_append_cons us _ hy, List.splitOnP_eq_singleton hlast]

theorem betweenBreaks_eq_concat (t : Text) :
    betweenBreaks t = (betweenBreaks t).dropLast ++ [afterBreaks t] := by
  obtain ⟨ys, h⟩ := exists_splitOnP_concat (fun run => decide (IsBreak run)) (runs t)
  simp [betweenBreaks, afterBreaks, h]

theorem groups_eq_concat (t : Text) :
    groups t = (betweenBreaks t).dropLast.map trim ++ [trim (afterBreaks t)] := by
  rw [groups_eq_betweenBreaks]
  conv_lhs => rw [betweenBreaks_eq_concat]
  simp

/-! ### Title and items -/

theorem head_items_titled {t rest : Text} (hg : Trimmed (t ++ ':' :: rest)) (hm : listMark ∉ t) :
    ((items (t ++ ':' :: rest)).map (dropEcho (t ++ [':']))).head? =
      some (trim (rest.takeWhile (· ≠ listMark))) := by
  obtain ⟨p, ps, hs⟩ := List.exists_cons_of_ne_nil (splitOn_ne_nil listMark rest)
  obtain ⟨-, hitems⟩ := items_titled hg hm hs
  rw [hitems, List.map_cons, dropEcho_append, trim_trimEnd, eq_takeWhile_of_splitOn hs]
  rfl

/-- A group with a colon on its first line is titled by the text before the first colon, and its
items lose the title and its colon where they begin with them. -/
theorem closingList_of_colon {g : Text} (hg : Trimmed g) (h : ':' ∈ g.takeWhile (· ≠ '\n')) :
    let t := g.takeWhile (· ≠ ':')
    (closingList g).title = trim t ++ [':'] ∧
      (closingList g).items = (items g).map (dropEcho (t ++ [':'])) ∧
      (listMark ∉ t → (closingList g).items.head? =
        some (trim ((g.drop (t.length + 1)).takeWhile (· ≠ listMark)))) := by
  intro t
  rcases closingList_cases g with ⟨hno, -⟩ | ⟨title, rest, hsplit, hc, -, hl⟩
  · exact absurd h hno
  · obtain rfl : t = title := by simp only [t, hsplit, takeWhile_append_of_notMem hc]
    have hdrop : g.drop (t.length + 1) = rest := by
      have hlen : t.length + 1 = (t ++ [':']).length := by simp
      calc g.drop (t.length + 1) = (t ++ [':'] ++ rest).drop (t ++ [':']).length := by
            rw [hlen, List.append_assoc]
            exact congrArg (List.drop _) hsplit
        _ = rest := List.drop_left
    rw [hl, hdrop]
    refine ⟨rfl, rfl, fun hm => ?_⟩
    have hfirst := head_items_titled (hsplit ▸ hg) hm
    rw [← hsplit] at hfirst
    exact hfirst

/-! ### Empty items -/

theorem trimmed_of_mem_closingList {g x : Text} (h : x ∈ (closingList g).items) :
    Trimmed x ∧ listMark ∉ x := by
  rcases closingList_cases g with ⟨-, hl⟩ | ⟨t, rest, -, -, -, hl⟩
  · rw [hl] at h
    exact trimmed_of_mem_items h
  · rw [hl] at h
    obtain ⟨y, hy, rfl⟩ := List.mem_map.mp h
    exact trimmed_dropEcho (trimmed_of_mem_items hy)

theorem dropEcho_eq_nil_iff {echo x : Text} (hx : Trimmed x) (hne : x ≠ []) :
    dropEcho echo x = [] ↔ x = echo := by
  constructor
  · intro h
    by_cases hp : echo <+: x
    · obtain ⟨r, rfl⟩ := hp
      rw [dropEcho_append, trim_eq_nil_iff] at h
      -- blank characters after the repetition would be at the end of a trimmed item
      rcases List.eq_nil_or_concat r with rfl | ⟨s, c, rfl⟩
      · simp
      · rw [List.concat_eq_append] at h hx
        rw [← List.append_assoc] at hx
        have hblank : isBlank c = true := h c (by simp)
        simp [hx.not_blank_last] at hblank
    · rw [dropEcho_of_not_repeated hp] at h
      exact absurd h hne
  · rintro rfl
    simpa using dropEcho_append x []

theorem nil_mem_items_iff {g : Text} : [] ∈ (closingList g).items ↔
    ∃ t rest, g = t ++ ':' :: rest ∧ ':' ∉ t ∧ '\n' ∉ t ∧
      t ++ [':'] ∈ (splitOn listMark g).map trim := by
  constructor
  · intro h
    rcases closingList_cases g with ⟨-, hl⟩ | ⟨t, rest, hg, hc, hn, hl⟩
    · rw [hl] at h
      exact absurd rfl (ne_nil_of_mem_items h)
    · rw [hl] at h
      obtain ⟨x, hx, hnil⟩ := List.mem_map.mp h
      obtain ⟨hne, hmem⟩ := mem_items.mp hx
      obtain rfl : x = t ++ [':'] :=
        (dropEcho_eq_nil_iff (trimmed_of_mem_items hx).1 hne).mp hnil
      exact ⟨t, rest, hg, hc, hn, List.mem_map.mpr hmem⟩
  · rintro ⟨t, rest, rfl, hc, hn, hmem⟩
    have hitem : t ++ [':'] ∈ items (t ++ ':' :: rest) :=
      mem_items.mpr ⟨by simp, List.mem_map.mp hmem⟩
    rw [closingList_titled hc hn]
    refine List.mem_map.mpr ⟨t ++ [':'], hitem, ?_⟩
    exact (dropEcho_eq_nil_iff (trimmed_of_mem_items hitem).1 (by simp)).mpr rfl

/-- The items of a closing list are trimmed and free of list marks. An item is empty exactly where a
piece between list marks is the title with its colon, as it stands on the first line, and nothing
else. -/
theorem closing_items_empty_iff {gs hs : List Text} {l : ClosingList}
    (h : takeClosing gs = (some l, hs)) :
    (∀ x ∈ l.items, Trimmed x ∧ listMark ∉ x) ∧
      ([] ∈ l.items ↔ ∃ g ∈ gs.getLast?, ∃ t rest, g = t ++ ':' :: rest ∧ ':' ∉ t ∧ '\n' ∉ t ∧
        t ++ [':'] ∈ (splitOn listMark g).map trim) := by
  obtain ⟨g, rfl, -, rfl⟩ := takeClosing_eq_some_iff.mp h
  refine ⟨fun x hx => trimmed_of_mem_closingList hx, ?_⟩
  rw [nil_mem_items_iff, List.getLast?_concat]
  exact ⟨fun hg => ⟨g, rfl, hg⟩, by rintro ⟨_, ⟨⟩, hg⟩; exact hg⟩

/-- A title right in front of the first list mark leaves an empty item. -/
theorem closing_items_empty :
    takeClosing ["Codes: | A"] = (some ⟨"Codes:", [[], "A"]⟩, []) ∧
      ¬ ∀ (gs hs : List Text) (l : ClosingList), takeClosing gs = (some l, hs) →
        ∀ x ∈ l.items, x ≠ [] ∧ Trimmed x ∧ listMark ∉ x := by
  have htake : takeClosing ["Codes: | A"] = (some ⟨"Codes:", [[], "A"]⟩, []) := by decide
  refine ⟨htake, fun h => ?_⟩
  exact (h _ _ _ htake [] (by simp)).1 rfl

/-- The title stands in front of the first list mark, and one of the items repeats it. -/
theorem closing_items_empty_iff_repeated :
    let gs : List Text := ["Intro", "Codes: | A | Codes: | Codes: B"]
    let l : ClosingList := ⟨"Codes:", [[], "A", [], "B"]⟩
    takeClosing gs = (some l, ["Intro".toList]) ∧ (∀ x ∈ l.items, Trimmed x ∧ listMark ∉ x) ∧
      ∃ g ∈ gs.getLast?, ∃ t rest, g = t ++ ':' :: rest ∧ ':' ∉ t ∧ '\n' ∉ t ∧
        t ++ [':'] ∈ (splitOn listMark g).map trim := by
  intro gs l
  have htake : takeClosing gs = (some l, ["Intro".toList]) := by decide
  obtain ⟨hitems, hempty⟩ := closing_items_empty_iff htake
  exact ⟨htake, hitems, hempty.mp (by simp [l])⟩

end Bulletin.Card

namespace Bulletin.CardText
open Text Card

/-- A card has a closing list exactly where a list mark stands after the last break of the
description without its code, and its sections are then those of the groups before. The list is
titled by the text before the first colon, if that colon is on the first line; its items are the
pieces between list marks that are not empty, one for each, without the title and its colon where
they begin with them. If the colon stands before every list mark, the first item is what stands
between the two. -/
theorem closing_after_breaks (title d : Text) (fallback : CardText) (hd : d ≠ []) :
    let c := (CardText.mk title d).card fallback
    let rest := (takeCode d).2
    let g := trim (afterBreaks rest)
    let segments := ((splitOn listMark g).map trim).filter (· ≠ [])
    let t := g.takeWhile (· ≠ ':')
    (c.closing ≠ none ↔ listMark ∈ afterBreaks rest) ∧
      ∀ l, c.closing = some l →
        c.sections = sectionsOf ((betweenBreaks rest).dropLast.map trim) ∧
        (':' ∉ g.takeWhile (· ≠ '\n') → l.title = "List includes:" ∧ l.items = segments) ∧
        (':' ∈ g.takeWhile (· ≠ '\n') →
          l.title = trim t ++ [':'] ∧ l.items = segments.map (dropEcho (t ++ [':'])) ∧
          (listMark ∉ t → l.items.head? =
            some (trim ((g.drop (t.length + 1)).takeWhile (· ≠ listMark))))) := by
  intro c rest g segments t
  have hcard : c = ofDescription (title.orElse fallback.title) d := by
    simp only [c, card, orElse, orElse_eq_self hd]
  have hcode : takeCode d = ((takeCode d).1, rest) := rfl
  have hgroups : groups rest = (betweenBreaks rest).dropLast.map trim ++ [g] := groups_eq_concat rest
  have hmark : listMark ∈ g ↔ listMark ∈ afterBreaks rest := mark_mem_trim
  have htrimmed : Trimmed g := trimmed_trim _
  rcases ofDescription_cases (title.orElse fallback.title) d hcode with
    ⟨hread, hm⟩ | ⟨gs, g', hg, hm, hread⟩
  · rw [hcard, hread, ← hmark]
    refine ⟨?_, by rintro l ⟨⟩⟩
    simpa using hm _ _ hgroups
  · obtain ⟨rfl, hlast⟩ := List.append_inj' (hg.symm.trans hgroups) rfl
    obtain rfl : g' = g := List.singleton_inj.mp hlast
    rw [hcard, hread, ← hmark]
    refine ⟨by simp [hm], ?_⟩
    rintro l ⟨⟩
    refine ⟨rfl, fun hcolon => ?_, closingList_of_colon htrimmed⟩
    rw [closingList_untitled hcolon]
    exact ⟨rfl, rfl⟩

/-- The closing list stands after a code segment and a break of mixed blank characters, and its
items repeat the title in three ways, of which one is the title. -/
theorem closing_after_breaks_repeated :
    let d : Text := "Intro\n\n[CODE]x | y[/CODE]\n \t\nCodes : a | Codes :b | codes : c | d: e \n"
    let c := (CardText.mk "T" d).card
    d ≠ [] ∧ listMark ∈ afterBreaks (takeCode d).2 ∧
      ∃ l, c.closing = some l ∧ l.title = "Codes:" ∧
        l.items = ["a".toList, "b", "codes : c", "d: e"] ∧ c.sections = [.paragraph "Intro"] := by
  intro d c
  have hd : d ≠ [] := by decide
  have hafter : afterBreaks (takeCode d).2 = "Codes : a | Codes :b | codes : c | d: e" := by
    decide
  have hmark : listMark ∈ afterBreaks (takeCode d).2 := by rw [hafter]; decide
  obtain ⟨hclosing, hlist⟩ := closing_after_breaks "T" d .standard hd
  obtain ⟨l, hl⟩ := Option.ne_none_iff_exists'.mp (hclosing.mpr hmark)
  obtain ⟨hsections, -, htitled⟩ := hlist l hl
  rw [hafter] at htitled
  obtain ⟨htitle, hitems, -⟩ := htitled (by decide)
  refine ⟨hd, hmark, l, hl, ?_, ?_, ?_⟩
  · rw [htitle]
    decide
  · rw [hitems]
    decide
  · rw [hsections]
    decide

end Bulletin.CardText
