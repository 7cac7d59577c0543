import Bulletin.Proofs.Card.Fallback
import Bulletin.Proofs.Card.Reader
import Bulletin.Proofs.Text.LineEnding

/-! Descriptions with line endings of two characters. A carriage return joins the break or the line
it stands before, so a description is cut at the same places, and its card holds the same texts with
these line endings in them. -/

namespace Bulletin

def Section.map (f : Text → Text) : Section → Section
  | .list items => .list (items.map f)
  | .paragraph t => .paragraph (f t)

def ClosingList.map (f : Text → Text) (l : ClosingList) : ClosingList :=
  { l with items := l.items.map f }

/-- The card with `f` applied to its texts, apart from its two titles. -/
def Card.map (f : Text → Text) (c : Card) : Card :=
  { c with
    sections := c.sections.map (Section.map f)
    code := c.code.map f
    closing := c.closing.map (ClosingList.map f) }

namespace Card
open Text

theorem opens_crlf_iff {t : Text} : Opens (crlf t) ↔ Opens t := by
  induction t with
  | nil => simp
  | cons c t ih =>
    by_cases hc : c = '\n'
    · subst hc
      exact iff_of_true ⟨['\r'], crlf t, by simp, rfl⟩ (opens_newline t)
    · have hcrlf : Opens ([c] ++ crlf t) ↔ Opens ([c] ++ t) := by
        rw [opens_append_iff, opens_append_iff, ih]
      rwa [crlf_cons hc]

theorem Pieces.crlf {t : Text} {ps : List Text} (h : Pieces t ps) : ∃ qs, Pieces (crlf t) qs ∧
    List.Forall₂ (fun p q => ∃ b, AllBlank b ∧ q = Text.crlf p ++ b) ps qs := by
  induction h with
  | nil => exact ⟨[[]], .nil, .cons ⟨[], by simp, rfl⟩ .nil⟩
  | @cut w s ps hw hs _ ih =>
    obtain ⟨qs, hqs, hblank⟩ := ih
    have hw' : AllBlank (Text.crlf w ++ ['\r']) := by simp [hw]
    have hcut := Pieces.cut hw' (mt opens_crlf_iff.mp hs) hqs
    refine ⟨['\r'] :: qs, ?_, .cons ⟨['\r'], by simp, rfl⟩ hblank⟩
    simpa using Pieces.char (c := '\r') (by simp) hcut
  | @char c r p ps hc _ ih =>
    obtain ⟨qs, hqs, hblank⟩ := ih
    cases hblank with
    | @cons _ q _ qs hq hblank =>
      obtain ⟨b, hb, rfl⟩ := hq
      have hchar := Pieces.char (fun hn => mt opens_crlf_iff.mp (hc hn)) hqs
      by_cases hn : c = '\n'
      · subst hn
        refine ⟨_, Pieces.char (c := '\r') (by simp) hchar, .cons ⟨b, hb, rfl⟩ hblank⟩
      · rw [crlf_cons hn]
        exact ⟨_, hchar, .cons ⟨b, hb, by rw [crlf_cons hn]; rfl⟩ hblank⟩

theorem groups_crlf (t : Text) : groups (crlf t) = (groups t).map crlf := by
  obtain ⟨ps, h⟩ : ∃ ps, Pieces t ps := ⟨_, pieces_spec t⟩
  obtain ⟨qs, hqs, hblank⟩ := h.crlf
  rw [hqs.groups_eq, h.groups_eq]
  clear h hqs
  induction hblank with
  | nil => rfl
  | cons hq _ ih =>
    obtain ⟨b, hb, rfl⟩ := hq
    rw [List.map_cons, ih, trim_append_blank hb, trim_crlf]
    rfl

theorem takeCode_crlf (d : Text) :
    takeCode (crlf d) = ((takeCode d).1.map crlf, crlf (takeCode d).2) := by
  have hstart := @cut?_crlf codeStart (by decide) (by decide) (by decide) d
  cases hs : cut? d codeStart with
  | none => simp [takeCode, hstart, hs]
  | some p =>
    obtain ⟨before, rest⟩ := p
    have hend := @cut?_crlf codeEnd (by decide) (by decide) (by decide) rest
    cases he : cut? rest codeEnd with
    | none => simp [takeCode, hstart, hs, hend, he]
    | some q =>
      obtain ⟨inner, after⟩ := q
      by_cases hi : inner = []
      · simp [takeCode, hstart, hs, hend, he, hi]
      · simp [takeCode, hstart, hs, hend, he, hi, trim_crlf, ← crlf_append]

theorem items_crlf (g : Text) : items (crlf g) = (items g).map crlf := by
  have htrim : trim ∘ crlf = crlf ∘ trim := funext trim_crlf
  rw [items, items, splitOn_crlf (by decide) (by decide), List.map_map, htrim, ← List.map_map,
    List.filter_map]
  congr 1
  refine List.filter_congr fun x _ => ?_
  simp

theorem dropEcho_crlf {echo : Text} (hn : '\n' ∉ echo) (hr : echo.getLast? ≠ some '\r')
    (item : Text) : dropEcho echo (crlf item) = crlf (dropEcho echo item) := by
  by_cases h : echo <+: item
  · obtain ⟨y, rfl⟩ := h
    rw [crlf_append, crlf_of_line hn, dropEcho_append, dropEcho_append, trim_crlf]
  · rw [dropEcho_of_not_repeated h, dropEcho_of_not_repeated (mt (prefix_crlf_iff hn hr).mp h)]

theorem closingList_crlf (g : Text) : closingList (crlf g) = (closingList g).map crlf := by
  have hcolon := @cutLine?_crlf ':' (by decide) (by decide) g
  rcases closingList_cases g with ⟨hm, h⟩ | ⟨t, rest, rfl, hm, hn, h⟩
  · rw [(cutLine?_eq_none_iff (by decide)).mpr hm, Option.map_none] at hcolon
    rw [h, closingList_untitled ((cutLine?_eq_none_iff (by decide)).mp hcolon), items_crlf]
    rfl
  · have hcrlf : crlf (t ++ ':' :: rest) = t ++ ':' :: crlf rest := by
      rw [crlf_append, crlf_of_line hn, crlf_cons (by decide)]
    have hecho : dropEcho (t ++ [':']) ∘ crlf = crlf ∘ dropEcho (t ++ [':']) :=
      funext fun item => dropEcho_crlf (by simp [hn]) (by simp) item
    rw [h, hcrlf, closingList_titled hm hn, ← hcrlf, items_crlf, List.map_map, hecho,
      ← List.map_map]
    rfl

theorem mark_mem_crlf_iff {g : Text} : listMark ∈ crlf g ↔ listMark ∈ g := mem_crlf_iff (by decide)

theorem takeClosing_crlf (gs : List Text) : takeClosing (gs.map crlf) =
    ((takeClosing gs).1.map (ClosingList.map crlf), (takeClosing gs).2.map crlf) := by
  rcases List.eq_nil_or_concat gs with rfl | ⟨hs, g, rfl⟩
  · rfl
  · by_cases hm : listMark ∈ g
    · simp [takeClosing, hm, mark_mem_crlf_iff, closingList_crlf]
    · simp [takeClosing, hm, mark_mem_crlf_iff]

theorem section?_crlf (g : Text) : section? (crlf g) = (section? g).map (Section.map crlf) := by
  by_cases hm : listMark ∈ g
  · rw [section?_list hm, section?_list (mark_mem_crlf_iff.mpr hm), items_crlf]
    rfl
  · by_cases hne : g = []
    · simp [hne, section?_nil]
    · have hne' : crlf g ≠ [] := mt crlf_eq_nil_iff.mp hne
      have hm' : listMark ∉ crlf g := mt mark_mem_crlf_iff.mp hm
      rw [section?_paragraph hne hm, section?_paragraph hne' hm']
      rfl

theorem sectionsOf_crlf (gs : List Text) :
    sectionsOf (gs.map crlf) = (sectionsOf gs).map (Section.map crlf) := by
  simp only [sectionsOf, List.filterMap_map, List.map_filterMap]
  exact List.filterMap_congr fun g _ => section?_crlf g

theorem ofDescription_crlf (title d : Text) :
    ofDescription title (crlf d) = (ofDescription title d).map crlf := by
  simp only [ofDescription, takeCode_crlf, groups_crlf, takeClosing_crlf, sectionsOf_crlf, Card.map]

end Card

theorem CardText.card_crlf (title : Text) {d : Text} (hd : d ≠ []) (fallback : CardText) :
    (CardText.mk title (Text.crlf d)).card fallback =
      ((CardText.mk title d).card fallback).map Text.crlf := by
  have hd' : Text.crlf d ≠ [] := mt Text.crlf_eq_nil_iff.mp hd
  simp only [card, orElse, Text.orElse_eq_self hd, Text.orElse_eq_self hd', Card.ofDescription_crlf]

end Bulletin
