import Bulletin.Proofs.Html.Line

/-! Blocks written as lines. A canonical block is what its line reads as, with blank characters
around it or not. So canonical blocks are read back from any text whose lines are theirs, padded and
with blank lines among them; and the blocks of every text are canonical, one for each line that is
not blank. -/

namespace Bulletin.Block
open Text

def line : Block → Text
  | .paragraph t => t
  | .separator => separatorToken
  | .card => cardToken

/-- A paragraph is a trimmed line of its own, which is neither empty nor one of the two tokens. -/
def Canonical : Block → Prop
  | .paragraph t => t ≠ [] ∧ Trimmed t ∧ '\n' ∉ t ∧ t ≠ separatorToken ∧ t ≠ cardToken
  | .separator => True
  | .card => True

instance : (x : Block) → Decidable x.Canonical
  | .paragraph t => inferInstanceAs (Decidable
      (t ≠ [] ∧ Trimmed t ∧ '\n' ∉ t ∧ t ≠ separatorToken ∧ t ≠ cardToken))
  | .separator => isTrue trivial
  | .card => isTrue trivial

def print (bs : List Block) : Text := ['\n'].intercalate (bs.map line)

/-- Lines that show the blocks `bs`: their own lines, padded with blank characters, and blank lines
anywhere among them. -/
inductive Spread : List Block → List Text → Prop where
  | nil : Spread [] []
  | blank {w : Text} {bs : List Block} {ls : List Text} (hw : AllBlank w) (hn : '\n' ∉ w)
    (h : Spread bs ls) : Spread bs (w :: ls)
  | block {u v : Text} {x : Block} {bs : List Block} {ls : List Text} (hu : AllBlank u)
    (hv : AllBlank v) (hnu : '\n' ∉ u) (hnv : '\n' ∉ v) (h : Spread bs ls) :
    Spread (x :: bs) ((u ++ x.line ++ v) :: ls)

theorem spread_lines (bs : List Block) : Spread bs (bs.map line) := by
  induction bs with
  | nil => exact .nil
  | cons x bs ih => simpa using Spread.block (x := x) allBlank_nil allBlank_nil (by simp) (by simp) ih

/-! ### One line -/

theorem Canonical.line_oneLine {x : Block} (h : x.Canonical) : '\n' ∉ x.line := by
  cases x with
  | paragraph t => exact h.2.2.1
  | separator => decide
  | card => decide

theorem ofLine?_line {x : Block} (h : x.Canonical) : ofLine? x.line = some x := by
  cases x with
  | paragraph t =>
    obtain ⟨hne, htrim, -, hs, hc⟩ := h
    simp [line, ofLine?, htrim.trim_eq, hne, hs, hc]
  | separator => decide
  | card => decide

theorem line_of_ofLine? {l : Text} {x : Block} (h : ofLine? l = some x) : x.line = trim l := by
  cases x with
  | paragraph t => exact (paragraph_of_ofLine? h).1
  | separator =>
    by_contra hne
    have hs : trim l ≠ separatorToken := Ne.symm hne
    simp only [ofLine?, if_neg hs] at h
    split at h
    · simp at h
    · split at h <;> simp at h
  | card => exact (ofLine?_eq_card_iff.mp h).symm

theorem canonical_of_ofLine? {l : Text} {x : Block} (hn : '\n' ∉ l) (h : ofLine? l = some x) :
    x.Canonical := by
  cases x with
  | paragraph t =>
    obtain ⟨rfl, hne, hc, hs⟩ := paragraph_of_ofLine? h
    exact ⟨hne, trimmed_trim l, fun hm => hn (mem_of_mem_trim hm), hs, hc⟩
  | separator => trivial
  | card => trivial

/-! ### Many lines -/

theorem ofText_intercalate {ls : List Text} (h : ∀ l ∈ ls, '\n' ∉ l) :
    ofText (['\n'].intercalate ls) = ls.filterMap ofLine? := by
  cases ls with
  | nil => rfl
  | cons l ls => rw [ofText, lines_intercalate (List.cons_ne_nil l ls) h]

theorem Spread.oneLine {bs : List Block} {ls : List Text} (hbs : ∀ x ∈ bs, x.Canonical)
    (h : Spread bs ls) : ∀ l ∈ ls, '\n' ∉ l := by
  induction h with
  | nil => simp
  | blank _ hn _ ih =>
    simp only [List.forall_mem_cons]
    exact ⟨hn, ih hbs⟩
  | block _ _ hnu hnv _ ih =>
    simp only [List.forall_mem_cons] at hbs ⊢
    exact ⟨by simp [hnu, hnv, hbs.1.line_oneLine], ih hbs.2⟩

theorem Spread.filterMap_ofLine? {bs : List Block} {ls : List Text} (hbs : ∀ x ∈ bs, x.Canonical)
    (h : Spread bs ls) : ls.filterMap ofLine? = bs := by
  induction h with
  | nil => rfl
  | blank hw _ _ ih => rw [List.filterMap_cons_none (ofLine?_eq_none_iff.mpr hw), ih hbs]
  | @block u v x bs ls hu hv _ _ _ ih =>
    simp only [List.forall_mem_cons] at hbs
    have hx : ofLine? (u ++ x.line ++ v) = some x :=
      (ofLine?_pad x.line hu hv).trans (ofLine?_line hbs.1)
    rw [List.filterMap_cons_some hx, ih hbs.2]

/-- Canonical blocks are read back from every text that shows them. -/
theorem ofText_spread {bs : List Block} {ls : List Text} (hbs : ∀ x ∈ bs, x.Canonical)
    (h : Spread bs ls) : ofText (['\n'].intercalate ls) = bs := by
  rw [ofText_intercalate (h.oneLine hbs), h.filterMap_ofLine? hbs]

theorem canonical_of_mem_ofText {t : Text} {x : Block} (h : x ∈ ofText t) : x.Canonical := by
  obtain ⟨l, hl, hx⟩ := List.mem_filterMap.mp h
  exact canonical_of_ofLine? (notMem_of_mem_splitOn hl) hx

theorem map_line_ofText (t : Text) : (ofText t).map line = (Html.solidLines t).map trim := by
  rw [ofText, Html.solidLines]
  induction lines t with
  | nil => rfl
  | cons l ls ih =>
    by_cases hl : AllBlank l
    · simpa [hl, List.filterMap_cons_none (ofLine?_eq_none_iff.mpr hl)] using ih
    · obtain ⟨x, hx⟩ := Option.ne_none_iff_exists'.mp (mt ofLine?_eq_none_iff.mp hl)
      simp [hl, List.filterMap_cons_some hx, line_of_ofLine? hx, ih]

/-- Reading and writing blocks undo each other. The blocks of every text are canonical, one for each
line that is not blank, in the order of the lines; and canonical blocks are read back from the text
they are written as, also where its lines are padded with blank characters and blank lines stand
among them. -/
theorem ofText_print :
    (∀ t : Text, (∀ x ∈ ofText t, x.Canonical) ∧
      (ofText t).map line = (Html.solidLines t).map trim) ∧
    ∀ bs : List Block, (∀ x ∈ bs, x.Canonical) → ofText (print bs) = bs ∧
      ∀ ls : List Text, Spread bs ls → ofText (['\n'].intercalate ls) = bs := by
  refine ⟨fun t => ⟨fun x hx => canonical_of_mem_ofText hx, map_line_ofText t⟩, fun bs hbs => ?_⟩
  exact ⟨ofText_spread hbs (spread_lines bs), fun ls h => ofText_spread hbs h⟩

/-- Blank lines of several kinds, padding with characters that end a line elsewhere, and paragraphs
that begin like the two tokens. -/
theorem ofText_print_spread :
    let bs : List Block := [.paragraph "---x", .separator, .card, .paragraph "[METRIC_ATTACH_CARD]]"]
    let ls : List Text := ["\r", "\u2028---x\x0b", "---\r", " \u0085", "[METRIC_ATTACH_CARD]\u2029",
      "[METRIC_ATTACH_CARD]]", []]
    (∀ x ∈ bs, x.Canonical) ∧ ofText (print bs) = bs ∧ Spread bs ls ∧
      ofText (['\n'].intercalate ls) = bs := by
  intro bs ls
  have hbs : ∀ x ∈ bs, x.Canonical := by decide
  have hspread : Spread bs ls := by
    refine .blank (by decide) (by decide) ?_
    refine .block (u := "\u2028") (v := "\x0b") (by decide) (by decide) (by decide) (by decide) ?_
    refine .block (u := []) (v := "\r") (by decide) (by decide) (by decide) (by decide) ?_
    refine .blank (by decide) (by decide) ?_
    refine .block (u := []) (v := "\u2029") (by decide) (by decide) (by decide) (by decide) ?_
    refine .block (u := []) (v := []) (by decide) (by decide) (by decide) (by decide) ?_
    exact .blank (by decide) (by decide) .nil
  obtain ⟨hprint, hread⟩ := ofText_print.2 bs hbs
  exact ⟨hbs, hprint, hspread, hread ls hspread⟩

end Bulletin.Block
