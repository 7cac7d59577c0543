import Bulletin.Proofs.Card.Reader
import Bulletin.Proofs.Card.Run

/-! Composed descriptions. The blank characters at the end of a text, those at the start of the next
and an empty line between them are one break, so the groups of the composed text are those of the
two texts without these blank characters. Blank characters at the ends of a text add at most empty
groups to it, which have no section; so a text in front of another adds its sections to the card of
the other and changes nothing else. -/

namespace Bulletin.Card
open Text

theorem not_opens_trimStart (t : Text) : ¬ Opens (trimStart t) := by
  cases h : trimStart t with
  | nil => exact not_opens_nil
  | cons c r => exact not_opens_cons (not_blank_of_head?_trimStart (t := t) (by simp [h]))

theorem Pieces.trimEnd_append {t y l q : Text} {ps qs : List Text}
    (h : Pieces (trimEnd t) (ps ++ [l])) (hy : Pieces y (q :: qs)) :
    Pieces (trimEnd t ++ y) (ps ++ (l ++ q) :: qs) := by
  refine h.append (fun r hr ho => ?_) hy
  rw [opens_append_iff]
  rintro (hopens | ⟨hblank, -⟩)
  · exact ho hopens
  · -- the last character of the text would be blank
    obtain ⟨a, ha⟩ := hr
    obtain ⟨c, hc⟩ : ∃ c, ('\n' :: r).getLast? = some c := ⟨_, List.getLast?_eq_some_getLast (by simp)⟩
    have hlast : c ∈ (trimEnd t).getLast? := by
      rw [← ha, List.getLast?_append, hc]
      rfl
    have hall : AllBlank ('\n' :: r) := by simp [hblank]
    have hc' : isBlank c = true := hall c (List.mem_of_getLast? hc)
    simp [not_blank_of_getLast?_trimEnd hlast] at hc'

theorem groups_across_break {a w b : Text} (hw : IsBreak w) :
    groups (trimEnd a ++ (w ++ trimStart b)) = groups (trimEnd a) ++ groups (trimStart b) := by
  obtain ⟨ps, l, ha⟩ := exists_pieces_concat (trimEnd a)
  obtain ⟨p, qs, hb⟩ := exists_pieces_cons (trimStart b)
  obtain ⟨x, y, hx, hy, hbreak⟩ := hb.break_append hw (not_opens_trimStart b)
  rw [(ha.trimEnd_append hbreak).groups_eq, ha.groups_eq, hb.groups_eq]
  simp [trim_append_blank hx, trim_blank_append hy]

theorem groups_eq_trimEnd_append (t : Text) :
    ∃ gs, sectionsOf gs = [] ∧ groups t = groups (trimEnd t) ++ gs := by
  obtain ⟨b, hb, ht⟩ := exists_trimEnd t
  by_cases hbreak : IsBreak b
  · have h : groups (trimEnd t ++ (b ++ [])) = groups (trimEnd t) ++ groups [] :=
      groups_across_break (b := []) hbreak
    exact ⟨[[]], rfl, by rw [← groups_nil, ← h, List.append_nil, ← ht]⟩
  · obtain ⟨ps, l, ha⟩ := exists_pieces_concat (trimEnd t)
    have hone : Pieces (b ++ []) [b ++ []] :=
      Pieces.run_append hbreak (Or.inl ⟨hb, not_opens_nil⟩) .nil
    have hwhole := ha.trimEnd_append hone
    refine ⟨[], rfl, ?_⟩
    rw [List.append_nil, ← ht] at hwhole
    rw [hwhole.groups_eq, ha.groups_eq]
    simp [trim_append_blank hb]

theorem groups_eq_append_trimStart (t : Text) :
    ∃ gs, sectionsOf gs = [] ∧ groups t = gs ++ groups (trimStart t) := by
  obtain ⟨a, ha, ht⟩ := exists_trimStart t
  have hopens := not_opens_trimStart t
  obtain ⟨p, ps, hp⟩ := exists_pieces_cons (trimStart t)
  by_cases hbreak : IsBreak a
  · have h : groups (trimEnd [] ++ (a ++ trimStart t)) = groups [] ++ groups (trimStart t) :=
      groups_across_break (a := []) hbreak
    refine ⟨[[]], rfl, ?_⟩
    rw [← groups_nil, ← h, ← ht]
    rfl
  · have hwhole := hp.run_append hbreak (Or.inl ⟨ha, hopens⟩)
    refine ⟨[], rfl, ?_⟩
    rw [← ht] at hwhole
    rw [hwhole.groups_eq, hp.groups_eq]
    simp [trim_blank_append ha]

theorem ofDescription_of_codeless (title : Text) {d : Text} (h : ¬ codeStart <:+: d) :
    ofDescription title d =
      ⟨title, sectionsOf (takeClosing (groups d)).2, none, (takeClosing (groups d)).1⟩ := by
  simp [ofDescription, takeCode_of_codeless h]

/-- An empty line and the blank characters around it are one break. -/
theorem groups_append_emptyLine (a b : Text) :
    groups (a ++ '\n' :: '\n' :: b) = groups (trimEnd a) ++ groups (trimStart b) := by
  obtain ⟨v, hv, ha⟩ := exists_trimEnd a
  obtain ⟨w, hw, hb⟩ := exists_trimStart b
  have hbreak : IsBreak (v ++ '\n' :: '\n' :: w) := by
    refine ⟨by simp [hv, hw], ?_⟩
    simp only [List.count_append, List.count_cons_self]
    omega
  calc groups (a ++ '\n' :: '\n' :: b)
      = groups (trimEnd a ++ (v ++ '\n' :: '\n' :: w ++ trimStart b)) := by
        conv_lhs => rw [ha, hb]
        simp
    _ = groups (trimEnd a) ++ groups (trimStart b) := groups_across_break hbreak

theorem codeless_append_emptyLine {a b : Text} (ha : ¬ codeStart <:+: a) (hb : ¬ codeStart <:+: b) :
    ¬ codeStart <:+: a ++ '\n' :: '\n' :: b := by
  rw [infix_append_cons_iff (by decide), ← List.nil_append ('\n' :: b),
    infix_append_cons_iff (by decide)]
  rintro (h | h | h)
  · exact ha h
  · exact codeless_nil h
  · exact hb h

theorem ofDescription_append (title : Text) {a b : Text} (ha : ¬ codeStart <:+: a)
    (hb : ¬ codeStart <:+: b) :
    ofDescription title (a ++ '\n' :: '\n' :: b) =
      { ofDescription title b with
        sections := sectionsOf (groups a) ++ (ofDescription title b).sections } := by
  obtain ⟨gs, hgs, hfront⟩ := groups_eq_trimEnd_append a
  obtain ⟨hs, hhs, hback⟩ := groups_eq_append_trimStart b
  have hne : groups (trimStart b) ≠ [] := groups_ne_nil _
  have hsections : sectionsOf (groups a) = sectionsOf (groups (trimEnd a)) := by
    rw [hfront, sectionsOf_append, hgs, List.append_nil]
  rw [ofDescription_of_codeless title (codeless_append_emptyLine ha hb),
    ofDescription_of_codeless title hb, groups_append_emptyLine, hback, takeClosing_append _ hne,
    takeClosing_append _ hne, hsections]
  simp [sectionsOf_append, hhs]

end Bulletin.Card

namespace Bulletin.CardText
open Text Card

/-- A text in front of a description, with an empty line between the two, puts its sections in front
of the sections of the card, and changes nothing else. -/
theorem card_append (title d₁ d₂ : Text) (fallback : CardText) (hd : d₂ ≠ [])
    (h₁ : ¬ codeStart <:+: d₁) (h₂ : ¬ codeStart <:+: d₂) :
    let c := (CardText.mk title d₂).card fallback
    (CardText.mk title (d₁ ++ '\n' :: '\n' :: d₂)).card fallback =
      { c with sections := sectionsOf (groups d₁) ++ c.sections } := by
  have hwhole : d₁ ++ '\n' :: '\n' :: d₂ ≠ [] := by simp
  simp only [card, orElse, orElse_eq_self hd, orElse_eq_self hwhole]
  exact ofDescription_append _ h₁ h₂

/-- The text in front would be a closing list by itself; blank characters meet the empty line on
both sides. -/
theorem card_append_lists :
    let d₁ : Text := "\n\nIntro\n\nCodes: a | b\n \t"
    let d₂ : Text := "\r\n c | d\n\nMore: e | f"
    let c := (CardText.mk "T" d₂).card
    d₂ ≠ [] ∧ ¬ codeStart <:+: d₁ ∧ ¬ codeStart <:+: d₂ ∧
      c.closing = some ⟨"More:", ["e", "f"]⟩ ∧
      (CardText.mk "T" (d₁ ++ '\n' :: '\n' :: d₂)).card =
        { c with sections := sectionsOf (groups d₁) ++ c.sections } := by
  intro d₁ d₂ c
  have hd : d₂ ≠ [] := by decide
  have h₁ : ¬ codeStart <:+: d₁ := cut?_eq_none_iff.mp (by decide)
  have h₂ : ¬ codeStart <:+: d₂ := cut?_eq_none_iff.mp (by decide)
  exact ⟨hd, h₁, h₂, by decide, card_append "T" d₁ d₂ .standard hd h₁ h₂⟩

end Bulletin.CardText
