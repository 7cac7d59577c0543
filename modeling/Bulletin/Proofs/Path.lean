import Bulletin.Path
import Bulletin.Proofs.Text.Split

/-! Paths and their texts. A path that was read from a text can be written and read again, and the
path that is reported for it leads to the same place from the directory it is reported in. -/

namespace Bulletin

theorem PathRoot.ofText_append (root : PathRoot) {t : Text} (h : t.head? ≠ some '/') :
    PathRoot.ofText (root.text ++ t) = root := by
  cases t with
  | nil => cases root <;> rfl
  | cons c r =>
    have hc : c ≠ '/' := by simpa using h
    cases root <;> simp [PathRoot.ofText, PathRoot.text, hc]

namespace Path

/-- The names of a path that was read from a text: none holds a slash, and none stands for
nothing. -/
def Normal (p : Path) : Prop := ∀ name ∈ p.parts, '/' ∉ name ∧ isVoid name = false

theorem normal_ofText (t : Text) : (ofText t).Normal := by
  intro name hname
  obtain ⟨hpiece, hvoid⟩ := List.mem_filter.mp hname
  exact ⟨Text.notMem_of_mem_splitOn hpiece, by simpa using hvoid⟩

theorem head?_intercalate_parts {p : Path} (h : p.Normal) :
    (['/'].intercalate p.parts).head? ≠ some '/' := by
  intro hhead
  cases hp : p.parts with
  | nil => simp [hp] at hhead
  | cons name rest =>
    obtain ⟨hslash, hvoid⟩ := h name (by simp [hp])
    cases name with
    | nil => simp [isVoid] at hvoid
    | cons c r =>
      have hc : c = '/' := by
        cases rest <;> simpa [hp, List.intercalate_cons_cons] using hhead
      simp [hc] at hslash

theorem filter_splitOn_intercalate {p : Path} (h : p.Normal) :
    (Text.splitOn '/' (['/'].intercalate p.parts)).filter (fun name => !isVoid name) =
      p.parts := by
  by_cases hp : p.parts = []
  · simp [hp, Text.splitOn, isVoid]
  · rw [Text.splitOn_eq, List.splitOn_intercalate '/' (fun name hname => (h name hname).1) hp]
    exact List.filter_eq_self.mpr fun name hname => by simp [(h name hname).2]

theorem ofText_text {p : Path} (h : p.Normal) : ofText p.text = p := by
  obtain ⟨root, parts⟩ := p
  unfold text
  split
  case isTrue hdot =>
    obtain ⟨rfl, rfl⟩ := hdot
    rfl
  case isFalse =>
    have hparts := filter_splitOn_intercalate h
    rw [ofText, PathRoot.ofText_append root (head?_intercalate_parts h)]
    cases root <;> simp_all [PathRoot.text, isVoid]

theorem text_ne_nil {p : Path} (h : p.Normal) : p.text ≠ [] := by
  intro hnil
  have hp : ofText [] = p := by rw [← hnil, ofText_text h]
  rw [← hp] at hnil
  cases hnil

/-- The path that `p` is from the directory that `base` leads to. -/
def join (base p : Path) : Path :=
  if p.isAbsolute then p else ⟨base.root, base.parts ++ p.parts⟩

theorem join_of_relativeTo? {p base q : Path} (h : p.relativeTo? base = some q) :
    base.join q = p := by
  unfold relativeTo? at h
  split at h
  case isTrue hp =>
    obtain ⟨hroot, hprefix⟩ := hp
    obtain ⟨rest, hrest⟩ := List.isPrefixOf_iff_prefix.mp hprefix
    obtain rfl := Option.some.inj h
    obtain ⟨root, parts⟩ := p
    simp only at hroot hrest
    simp [join, isAbsolute, ← hroot, ← hrest]
  case isFalse => simp at h

/-- The path that is reported to a user leads to the same place. -/
theorem join_display {p : Path} (base : Path) (h : p.Normal) :
    base.join (ofText (p.display base)) = base.join p := by
  unfold display
  by_cases habs : p.isAbsolute = true
  · rw [if_pos habs]
    cases hrel : p.relativeTo? base with
    | none => rw [Option.getD_none, ofText_text h]
    | some q =>
      have hq : q.Normal := by
        intro name hname
        have hmem : name ∈ (base.join q).parts := by
          unfold join
          split <;> simp [hname]
        rw [join_of_relativeTo? hrel] at hmem
        exact h name hmem
      rw [Option.getD_some, ofText_text hq, join_of_relativeTo? hrel, join, if_pos habs]
  · rw [if_neg habs, ofText_text h]

end Path
end Bulletin
