import Bulletin.Proofs.Html.Body

/-! The markup of a body, line by line. Every line is rendered by itself, whatever stands around it,
so the markup of a body is that of its lines, one after the other; blank lines and blank characters
around a line add nothing to it. -/

namespace Bulletin.Html
open Text

theorem renderBody_append_newline (a b : Text) (t fallback : CardText) :
    renderBody (a ++ '\n' :: b) t fallback =
      renderBody a t fallback ++ renderBody b t fallback := by
  simp only [renderBody_eq, Block.ofText_append_newline, List.flatMap_append]

theorem renderBody_of_allBlank {body : Text} (t fallback : CardText) (h : AllBlank body) :
    renderBody body t fallback = [] := by
  simp [renderBody_eq, Block.ofText_of_allBlank h]

theorem renderBody_pad {u v : Text} (body : Text) (t fallback : CardText) (hu : AllBlank u)
    (hv : AllBlank v) : renderBody (u ++ body ++ v) t fallback = renderBody body t fallback := by
  simp only [renderBody_eq, Block.ofText_append_blank _ hv, Block.ofText_blank_append _ hu]

theorem renderBody_eq_lines (body : Text) (t fallback : CardText) : renderBody body t fallback =
    (lines body).flatMap fun line => renderBody line t fallback := by
  induction body using split_induction '\n' with
  | piece a ha => simp [lines_of_notMem ha]
  | cut a b ha ih =>
    rw [renderBody_append_newline, ih, lines_append_newline, List.flatMap_append,
      lines_of_notMem ha, List.flatMap_singleton]

def solidLines (body : Text) : List Text := (lines body).filter fun line => ¬ AllBlank line

theorem renderBody_eq_solidLines (body : Text) (t fallback : CardText) :
    renderBody body t fallback =
      (solidLines body).flatMap fun line => renderBody line t fallback := by
  rw [renderBody_eq_lines, solidLines]
  induction lines body with
  | nil => rfl
  | cons line rest ih =>
    by_cases h : AllBlank line
    · simp [h, renderBody_of_allBlank t fallback h, ih]
    · simp [h, ih]

theorem renderBody_line {line : Text} (t fallback : CardText) (h : '\n' ∉ line) :
    renderBody line t fallback =
      (Block.ofLine? line).toList.flatMap fun x => (ofBlock (card (t.card fallback)) x).render := by
  rw [renderBody_eq, Block.ofText_line h]

theorem renderBody_eq_renderCard_iff {line : Text} (t fallback : CardText) (h : '\n' ∉ line) :
    renderBody line t fallback = renderCard t fallback ↔ trim line = Block.cardToken := by
  have hcard : Begins 't' (renderCard t fallback) := begins_ofBlock (t.card fallback) .card
  rw [renderBody_line t fallback h, ← Block.ofLine?_eq_card_iff]
  cases hx : Block.ofLine? line with
  | none =>
    obtain ⟨r, hr⟩ := hcard
    simp [← hr]
  | some x =>
    simp only [Option.toList_some, List.flatMap_singleton, Option.some.injEq]
    constructor
    · intro he
      have hmark : blockMark x = 't' := by
        by_contra hne
        exact (begins_ofBlock (t.card fallback) x).apart hcard hne he
      cases x with
      | card => rfl
      | paragraph _ => exact absurd hmark (by simp [blockMark])
      | separator => exact absurd hmark (by simp [blockMark])
    · rintro rfl
      rfl

/-- The markup of a body is put together from its lines: a newline separates two bodies, blank
characters around a body or line and blank lines anywhere add nothing, a body of blank lines is
empty, and the card stands at the places of the card lines and at no others. -/
theorem renderBody_by_lines (t fallback : CardText) :
    (∀ a b : Text, renderBody (a ++ '\n' :: b) t fallback =
      renderBody a t fallback ++ renderBody b t fallback) ∧
    (∀ u body v : Text, AllBlank u → AllBlank v →
      renderBody (u ++ body ++ v) t fallback = renderBody body t fallback) ∧
    (∀ body body' : Text, solidLines body = solidLines body' →
      renderBody body t fallback = renderBody body' t fallback) ∧
    (∀ body : Text, (∀ line ∈ lines body, AllBlank line) → renderBody body t fallback = []) ∧
    ∀ body : Text,
      renderBody body t fallback =
        (lines body).flatMap (fun line => renderBody line t fallback) ∧
      ∀ line ∈ lines body,
        renderBody line t fallback = renderCard t fallback ↔ trim line = Block.cardToken := by
  refine ⟨fun a b => renderBody_append_newline a b t fallback,
    fun u body v hu hv => renderBody_pad body t fallback hu hv, fun body body' h => ?_,
    fun body h => ?_, fun body => ⟨renderBody_eq_lines body t fallback, fun line hline => ?_⟩⟩
  · rw [renderBody_eq_solidLines, h, ← renderBody_eq_solidLines]
  · rw [renderBody_eq_lines]
    exact List.flatMap_eq_nil_iff.mpr fun line hline =>
      renderBody_of_allBlank t fallback (h line hline)
  · exact renderBody_eq_renderCard_iff t fallback (notMem_of_mem_splitOn hline)

/-- A body with blank lines of several kinds, and padded as a whole. -/
theorem renderBody_by_lines_padded :
    let t : CardText := ⟨"T", "x | y"⟩
    let body : Text := "a\n\n \t\n[METRIC_ATTACH_CARD]\u00a0"
    let body' : Text := "a\n[METRIC_ATTACH_CARD]\u00a0"
    let blank : Text := "\n\u2003\r\n"
    let line : Text := "[METRIC_ATTACH_CARD]\u00a0"
    solidLines body = solidLines body' ∧ renderBody body t = renderBody body' t ∧
      AllBlank blank ∧ renderBody (blank ++ body ++ blank) t = renderBody body t ∧
      (∀ line ∈ lines blank, AllBlank line) ∧ renderBody blank t = [] ∧
      line ∈ lines body ∧ trim line = Block.cardToken ∧ renderBody line t = renderCard t := by
  intro t body body' blank line
  obtain ⟨-, hpad, hblank, hempty, hlines⟩ := renderBody_by_lines t .standard
  have hsame : solidLines body = solidLines body' := by decide
  have hall : AllBlank blank := by decide
  have hnone : ∀ line ∈ lines blank, AllBlank line := by decide
  have hmem : line ∈ lines body := by decide
  have htoken : trim line = Block.cardToken := by decide
  exact ⟨hsame, hblank body body' hsame, hall, hpad blank body blank hall hall, hnone,
    hempty blank hnone, hmem, htoken, ((hlines body).2 line hmem).mpr htoken⟩

end Bulletin.Html
