import Bulletin.Markup
import Bulletin.Proofs.Text.Split
import Bulletin.Proofs.Text.Trim

/-! The blocks of a body text. A paragraph is a trimmed line that is neither empty nor one of the
two tokens. -/

namespace Bulletin.Block
open Text

theorem paragraph_of_ofLine? {line t : Text} (h : ofLine? line = some (.paragraph t)) :
    t = trim line ∧ t ≠ [] ∧ t ≠ cardToken ∧ t ≠ separatorToken := by
  have hc : trim line ≠ cardToken := by
    intro hc
    simp [ofLine?, hc] at h
  have hn : trim line ≠ [] := by
    intro hn
    simp [ofLine?, hn, Ne.symm (show cardToken ≠ [] by decide)] at h
  have hs : trim line ≠ separatorToken := by
    intro hs
    simp only [ofLine?, if_neg hc, if_neg hn, if_pos hs] at h
    simp at h
  obtain rfl : trim line = t := by simpa [ofLine?, hc, hn, hs] using h
  exact ⟨rfl, hn, hc, hs⟩

theorem mem_of_mem_paragraph {body t : Text} {c : Char} (ht : .paragraph t ∈ ofText body)
    (hc : c ∈ t) : c ∈ body := by
  obtain ⟨line, hline, h⟩ := List.mem_filterMap.mp ht
  obtain ⟨rfl, -⟩ := paragraph_of_ofLine? h
  exact (infix_of_mem_splitOn hline).subset (mem_of_mem_trim hc)

theorem ofLine?_eq_none_iff {line : Text} : ofLine? line = none ↔ AllBlank line := by
  rw [← trim_eq_nil_iff]
  constructor
  · intro h
    by_contra hn
    by_cases hc : trim line = cardToken
    · simp [ofLine?, hc] at h
    · by_cases hs : trim line = separatorToken
      · simp [ofLine?, hs, show separatorToken ≠ cardToken by decide,
          show separatorToken ≠ [] by decide] at h
      · simp [ofLine?, hc, hn, hs] at h
  · intro h
    simp [ofLine?, h, show [] ≠ cardToken by decide]

theorem ofLine?_eq_card_iff {line : Text} : ofLine? line = some .card ↔ trim line = cardToken := by
  constructor
  · intro h
    by_contra hc
    simp only [ofLine?, if_neg hc] at h
    split at h
    · simp at h
    · split at h <;> simp at h
  · intro h
    simp [ofLine?, h]

theorem ofLine?_pad {u v : Text} (line : Text) (hu : AllBlank u) (hv : AllBlank v) :
    ofLine? (u ++ line ++ v) = ofLine? line := by
  simp only [ofLine?, trim_append_blank hv, trim_blank_append hu]

/-- A newline anywhere in a body separates the blocks before it from the blocks after it. -/
theorem ofText_append_newline (a b : Text) : ofText (a ++ '\n' :: b) = ofText a ++ ofText b := by
  simp only [ofText, lines_append_newline, List.filterMap_append]

theorem ofText_line {line : Text} (h : '\n' ∉ line) : ofText line = (ofLine? line).toList := by
  rw [ofText, lines_of_notMem h]
  cases hl : ofLine? line <;> simp [hl]

theorem ofText_of_allBlank {t : Text} (h : AllBlank t) : ofText t = [] := by
  refine List.filterMap_eq_nil_iff.mpr fun line hline => ofLine?_eq_none_iff.mpr fun c hc => ?_
  exact h c ((infix_of_mem_splitOn hline).subset hc)

theorem ofText_blank_append {u : Text} (t : Text) (hu : AllBlank u) :
    ofText (u ++ t) = ofText t := by
  induction u using split_induction '\n' with
  | piece a ha =>
    -- the blank characters stand at the front of the first line
    have hline : ∀ line, '\n' ∉ line → ofText (a ++ line) = ofText line := by
      intro line hn
      have hpad : ofLine? (a ++ line) = ofLine? line := by
        simpa using ofLine?_pad line hu allBlank_nil
      rw [ofText_line (by simp [ha, hn]), ofText_line hn, hpad]
    by_cases ht : '\n' ∈ t
    · obtain ⟨line, rest, rfl, hn⟩ := List.eq_append_cons_of_mem ht
      rw [← List.append_assoc, ofText_append_newline, ofText_append_newline, hline line hn]
    · exact hline t ht
  | cut a b ha ih =>
    simp only [allBlank_append, allBlank_cons] at hu
    rw [List.append_assoc, List.cons_append, ofText_append_newline, ofText_of_allBlank hu.1,
      List.nil_append, ih hu.2.2]

theorem ofText_append_blank {v : Text} (t : Text) (hv : AllBlank v) :
    ofText (t ++ v) = ofText t := by
  induction t using split_induction '\n' with
  | piece a ha =>
    -- the first line of the blank characters stands at the end of the text
    have hline : ∀ w, '\n' ∉ w → AllBlank w → ofText (a ++ w) = ofText a := by
      intro w hn hw
      have hpad : ofLine? (a ++ w) = ofLine? a := by
        simpa using ofLine?_pad a allBlank_nil hw
      rw [ofText_line (by simp [ha, hn]), ofText_line ha, hpad]
    by_cases ht : '\n' ∈ v
    · obtain ⟨w, rest, rfl, hn⟩ := List.eq_append_cons_of_mem ht
      simp only [allBlank_append, allBlank_cons] at hv
      rw [← List.append_assoc, ofText_append_newline, hline w hn hv.1,
        ofText_of_allBlank hv.2.2, List.append_nil]
    · exact hline v ht hv
  | cut a b ha ih =>
    rw [List.append_assoc, List.cons_append, ofText_append_newline, ofText_append_newline, ih]

end Bulletin.Block
