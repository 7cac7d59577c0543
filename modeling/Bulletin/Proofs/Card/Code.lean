import Bulletin.Card
import Bulletin.Proofs.Card.Fallback
import Bulletin.Proofs.Text.Split
import Bulletin.Proofs.Text.Trim

/-! The code segment of a description. `CodeCut` says, without searching, where a description is
cut: at the first opening token and at the nearest closing token after it, with something between
them. There is at most one such cut. Taking out the code follows it where it exists and leaves every
other description alone, so what stands in the segment has no influence on the rest of the card. -/

namespace Bulletin.Card
open Text

/-- The description `d` cut at its first opening token and at the nearest closing token after it. -/
structure CodeCut (d before inner after : Text) : Prop where
  eq : d = before ++ (codeStart ++ (inner ++ (codeEnd ++ after)))
  first : ¬ codeStart <:+: before
  inner_ne_nil : inner ≠ []
  nearest : ¬ codeEnd <:+: inner

theorem codeStart_eq : codeStart = '[' :: "CODE]".toList := by decide
theorem codeEnd_eq : codeEnd = '[' :: "/CODE]".toList := by decide

theorem cut?_codeStart {before : Text} (rest : Text) (h : ¬ codeStart <:+: before) :
    cut? (before ++ (codeStart ++ rest)) codeStart = some (before, rest) := by
  rw [codeStart_eq] at h ⊢
  exact cut?_first (by decide) h

theorem cut?_codeEnd {inner : Text} (after : Text) (h : ¬ codeEnd <:+: inner) :
    cut? (inner ++ (codeEnd ++ after)) codeEnd = some (inner, after) := by
  rw [codeEnd_eq] at h ⊢
  exact cut?_first (by decide) h

theorem CodeCut.takeCode {d before inner after : Text} (h : CodeCut d before inner after) :
    takeCode d = (some (trim inner), trim (before ++ after)) := by
  have hstart := cut?_codeStart (inner ++ (codeEnd ++ after)) h.first
  rw [← h.eq] at hstart
  simp [Card.takeCode, hstart, cut?_codeEnd after h.nearest, h.inner_ne_nil]

/-- A description is cut in one way only. -/
theorem CodeCut.unique {d before inner after before' inner' after' : Text}
    (h : CodeCut d before inner after) (h' : CodeCut d before' inner' after') :
    before = before' ∧ inner = inner' ∧ after = after' := by
  have hstart := cut?_codeStart (inner ++ (codeEnd ++ after)) h.first
  rw [← h.eq, h'.eq, cut?_codeStart _ h'.first] at hstart
  obtain ⟨hbefore, hrest⟩ := Prod.mk.inj (Option.some.inj hstart)
  have hend := cut?_codeEnd after h.nearest
  rw [← hrest, cut?_codeEnd _ h'.nearest] at hend
  obtain ⟨hinner, hafter⟩ := Prod.mk.inj (Option.some.inj hend)
  exact ⟨hbefore.symm, hinner.symm, hafter.symm⟩

/-- The three ways in which a description has no code: no opening token, no closing token after the
first opening token, or nothing between the two. -/
def Codeless (d : Text) : Prop :=
  ¬ codeStart <:+: d ∨ ∃ before rest, d = before ++ (codeStart ++ rest) ∧
    ¬ codeStart <:+: before ∧ (¬ codeEnd <:+: rest ∨ codeEnd <+: rest)

theorem codeless_nil : ¬ codeStart <:+: [] := by
  intro h
  exact absurd (List.infix_nil.mp h) (by decide)

theorem takeCode_of_codeless {d : Text} (h : ¬ codeStart <:+: d) : takeCode d = (none, d) := by
  rw [takeCode, cut?_eq_none_iff.mpr h]

/-- A description is cut, or it has no code and is left as it is. -/
theorem codeCut_or_codeless (d : Text) :
    (∃ before inner after, CodeCut d before inner after) ∨
      (Codeless d ∧ takeCode d = (none, d)) := by
  cases hstart : cut? d codeStart with
  | none => exact Or.inr ⟨Or.inl (cut?_eq_none_iff.mp hstart), by simp [takeCode, hstart]⟩
  | some p =>
    obtain ⟨before, rest⟩ := p
    have hfirst : ¬ codeStart <:+: before := not_infix_of_cut? (by decide) hstart
    have hd : d = before ++ (codeStart ++ rest) := by
      rw [eq_append_of_cut? hstart, List.append_assoc]
    cases hend : cut? rest codeEnd with
    | none =>
      have hopen : ¬ codeEnd <:+: rest := cut?_eq_none_iff.mp hend
      exact Or.inr ⟨Or.inr ⟨before, rest, hd, hfirst, Or.inl hopen⟩,
        by simp [takeCode, hstart, hend]⟩
    | some q =>
      obtain ⟨inner, after⟩ := q
      have hrest : rest = inner ++ (codeEnd ++ after) := by
        rw [eq_append_of_cut? hend, List.append_assoc]
      by_cases hi : inner = []
      · have hprefix : codeEnd <+: rest := ⟨after, by simp [hrest, hi]⟩
        exact Or.inr ⟨Or.inr ⟨before, rest, hd, hfirst, Or.inr hprefix⟩,
          by simp [takeCode, hstart, hend, hi]⟩
      · exact Or.inl ⟨before, inner, after, by rw [hd, hrest], hfirst, hi,
          not_infix_of_cut? (by decide) hend⟩

theorem CodeCut.not_codeless {d before inner after : Text} (h : CodeCut d before inner after) :
    ¬ Codeless d := by
  have hstart := cut?_codeStart (inner ++ (codeEnd ++ after)) h.first
  rintro (hnone | ⟨before', rest, hd, hfirst, hrest⟩)
  · rw [← h.eq, cut?_eq_none_iff.mpr hnone] at hstart
    simp at hstart
  · rw [← h.eq, hd, cut?_codeStart rest hfirst] at hstart
    obtain ⟨-, rfl⟩ := Prod.mk.inj (Option.some.inj hstart)
    have hend := cut?_codeEnd after h.nearest
    rcases hrest with hopen | hprefix
    · rw [cut?_eq_none_iff.mpr hopen] at hend
      simp at hend
    · -- a closing token that follows at once is also the nearest one
      obtain ⟨t, ht⟩ := hprefix
      have hnear : cut? ([] ++ (codeEnd ++ t)) codeEnd = some ([], t) :=
        cut?_codeEnd t (by decide)
      rw [List.nil_append, ht, hend] at hnear
      exact h.inner_ne_nil (Prod.mk.inj (Option.some.inj hnear)).1

theorem not_codeCut_iff {d : Text} :
    (¬ ∃ before inner after, CodeCut d before inner after) ↔ Codeless d := by
  constructor
  · intro h
    exact ((codeCut_or_codeless d).resolve_left h).1
  · rintro h ⟨before, inner, after, hcut⟩
    exact hcut.not_codeless h

theorem takeCode_cases (d : Text) :
    takeCode d = (none, d) ∨ ∃ before inner after, CodeCut d before inner after ∧
      takeCode d = (some (trim inner), trim (before ++ after)) := by
  rcases codeCut_or_codeless d with ⟨before, inner, after, h⟩ | ⟨-, h⟩
  · exact Or.inr ⟨before, inner, after, h, h.takeCode⟩
  · exact Or.inl h

theorem takeCode_eq_some_iff {d code rest : Text} : takeCode d = (some code, rest) ↔
    ∃ before inner after, CodeCut d before inner after ∧
      code = trim inner ∧ rest = trim (before ++ after) := by
  constructor
  · intro h
    rcases takeCode_cases d with hc | ⟨before, inner, after, hcut, hc⟩
    · simp [hc] at h
    · obtain ⟨hcode, hrest⟩ := Prod.mk.inj (h.symm.trans hc)
      exact ⟨before, inner, after, hcut, Option.some.inj hcode, hrest⟩
  · rintro ⟨before, inner, after, hcut, rfl, rfl⟩
    exact hcut.takeCode

theorem rest_of_no_code {d rest : Text} (h : takeCode d = (none, rest)) : rest = d := by
  rcases takeCode_cases d with hc | ⟨before, inner, after, -, hc⟩
  · exact (Prod.mk.inj (h.symm.trans hc)).2
  · simp [hc] at h

theorem trimmed_of_code {d x rest : Text} (h : takeCode d = (some x, rest)) :
    Trimmed x ∧ ¬ codeEnd <:+: x ∧ Trimmed rest := by
  obtain ⟨before, inner, after, hcut, rfl, rfl⟩ := takeCode_eq_some_iff.mp h
  exact ⟨trimmed_trim inner, fun hi => hcut.nearest (hi.trans (infix_trim inner)),
    trimmed_trim (before ++ after)⟩

end Bulletin.Card

namespace Bulletin.CardText
open Text Card

/-- The code of a description decides nothing else about its card. -/
theorem card_of_codeCut {d d' before inner inner' after : Text} (title : Text) (fallback : CardText)
    (h : CodeCut d before inner after) (h' : CodeCut d' before inner' after) :
    (CardText.mk title d').card fallback =
      { (CardText.mk title d).card fallback with code := some (trim inner') } := by
  have hd : d ≠ [] := by simp [h.eq, codeStart_eq]
  have hd' : d' ≠ [] := by simp [h'.eq, codeStart_eq]
  simp only [card, orElse, orElse_eq_self hd, orElse_eq_self hd', ofDescription, h.takeCode,
    h'.takeCode]

/-- The code of a description is what stands between its first opening token and the nearest closing
token after it, trimmed; the rest is what stands around them, trimmed. A description is cut in at
most one way, and one that cannot be cut has no code and is left as it is. A card whose description
is cut keeps its title, its sections and its closing list whatever its code is. -/
theorem takeCode_nearest :
    (∀ d code rest : Text, takeCode d = (some code, rest) ↔
      ∃ before inner after, CodeCut d before inner after ∧
        code = trim inner ∧ rest = trim (before ++ after)) ∧
    (∀ d before inner after before' inner' after' : Text, CodeCut d before inner after →
      CodeCut d before' inner' after' → before = before' ∧ inner = inner' ∧ after = after') ∧
    (∀ d : Text, ((¬ ∃ before inner after, CodeCut d before inner after) ↔ Codeless d) ∧
      (Codeless d → takeCode d = (none, d))) ∧
    ∀ (before inner inner' after title : Text) (fallback : CardText), ¬ codeStart <:+: before →
      inner ≠ [] → ¬ codeEnd <:+: inner → inner' ≠ [] → ¬ codeEnd <:+: inner' →
      (CardText.mk title (before ++ (codeStart ++ (inner' ++ (codeEnd ++ after))))).card fallback =
        { (CardText.mk title (before ++ (codeStart ++ (inner ++ (codeEnd ++ after))))).card fallback
          with code := some (trim inner') } := by
  refine ⟨fun d code rest => takeCode_eq_some_iff, fun d _ _ _ _ _ _ h h' => h.unique h',
    fun d => ⟨not_codeCut_iff, fun h => ?_⟩, ?_⟩
  · rcases codeCut_or_codeless d with ⟨before, inner, after, hcut⟩ | ⟨-, hnone⟩
    · exact absurd h hcut.not_codeless
    · exact hnone
  · intro before inner inner' after title fallback hbefore hne hend hne' hend'
    exact card_of_codeCut title fallback ⟨rfl, hbefore, hne, hend⟩ ⟨rfl, hbefore, hne', hend'⟩

/-- A closing token before the first opening token and a second opening token after it; a first
segment that is empty; and a segment replaced by one with marks, breaks and opening tokens. -/
theorem takeCode_nearest_nested :
    let before : Text := "[/CODE] a | b\n\n"
    let inner' : Text := " x | y:\n\n[CODE][CODE"
    let d : Text := "[CODE][/CODE]\n\n[CODE]z[/CODE]"
    let t : CardText := ⟨"T", before ++ (codeStart ++ ("z".toList ++ (codeEnd ++ "\n".toList)))⟩
    let t' : CardText := ⟨"T", before ++ (codeStart ++ (inner' ++ (codeEnd ++ "\n".toList)))⟩
    CodeCut t'.description before inner' "\n" ∧
      takeCode t'.description = (some (trim inner'), trim (before ++ "\n".toList)) ∧
      Codeless d ∧ takeCode d = (none, d) ∧
      ¬ codeStart <:+: before ∧ ¬ codeEnd <:+: inner' ∧
      t'.card = { t.card with code := some (trim inner') } := by
  intro before inner' d t t'
  obtain ⟨hsome, -, hnone, hcard⟩ := takeCode_nearest
  have hbefore : ¬ codeStart <:+: before := cut?_eq_none_iff.mp (by decide)
  have hne : inner' ≠ [] := by decide
  have hend : ¬ codeEnd <:+: inner' := cut?_eq_none_iff.mp (by decide)
  have hcut : CodeCut t'.description before inner' "\n" := ⟨rfl, hbefore, hne, hend⟩
  have hempty : Codeless d := by
    refine Or.inr ⟨[], codeEnd ++ "\n\n[CODE]z[/CODE]".toList, ?_, ?_, Or.inr ?_⟩
    · decide
    · decide
    · exact List.prefix_append _ _
  exact ⟨hcut, (hsome _ _ _).mpr ⟨before, inner', "\n", hcut, rfl, rfl⟩, hempty,
    (hnone d).2 hempty, hbefore, hend,
    hcard before "z" inner' "\n" "T" .standard hbefore (by decide) (by decide) hne hend⟩

end Bulletin.CardText
