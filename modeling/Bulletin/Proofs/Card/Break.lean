import Bulletin.Card
import Bulletin.Proofs.Text.Split
import Bulletin.Proofs.Text.Trim

/-! Paragraph breaks. `Pieces` says by recursion on the text what cutting it at its breaks gives,
and `pieces_spec` that the function `pieces` computes it. What is proved from it: nothing but blank
characters is lost, no piece holds a break, and the last of several pieces comes after a break. -/

namespace Bulletin.Card
open Text

/-- Blank characters at the start lead to a newline. -/
def Opens (t : Text) : Prop := ∃ w s, AllBlank w ∧ t = w ++ '\n' :: s

/-- After some newline there are only blank characters. -/
def Closes (t : Text) : Prop := ∃ s w, AllBlank w ∧ t = s ++ '\n' :: w

/-- No two newlines have only blank characters between them. -/
def BreakFree (t : Text) : Prop := ∀ w, AllBlank w → ¬ '\n' :: (w ++ ['\n']) <:+: t

@[simp] theorem not_opens_nil : ¬ Opens [] := by simp [Opens]
@[simp] theorem not_closes_nil : ¬ Closes [] := by simp [Closes]
@[simp] theorem breakFree_nil : BreakFree [] := by simp [BreakFree]

theorem opens_newline (s : Text) : Opens ('\n' :: s) := ⟨[], s, by simp, rfl⟩

theorem not_opens_cons {c : Char} {r : Text} (hc : isBlank c = false) : ¬ Opens (c :: r) := by
  rintro ⟨w, s, hw, h⟩
  cases w with
  | nil =>
    obtain ⟨rfl, -⟩ := List.cons.inj h
    simp at hc
  | cons d w =>
    obtain ⟨rfl, -⟩ := List.cons.inj h
    simp [hc] at hw

theorem opens_append_iff {a b : Text} : Opens (a ++ b) ↔ Opens a ∨ (AllBlank a ∧ Opens b) := by
  constructor
  · rintro ⟨w, s, hw, h⟩
    rcases List.append_eq_append_iff.mp h with ⟨x, rfl, rfl⟩ | ⟨x, rfl, hx⟩
    · simp only [allBlank_append] at hw
      exact Or.inr ⟨hw.1, x, s, hw.2, rfl⟩
    · cases x with
      | nil =>
        have hb : b = '\n' :: s := by simpa using hx.symm
        exact Or.inr ⟨by simpa using hw, hb ▸ opens_newline s⟩
      | cons c x =>
        obtain ⟨rfl, -⟩ := List.cons.inj hx
        exact Or.inl ⟨w, x, hw, rfl⟩
  · rintro (⟨w, s, hw, rfl⟩ | ⟨ha, w, s, hw, rfl⟩)
    · exact ⟨w, s ++ b, hw, by simp⟩
    · exact ⟨a ++ w, s, by simp [ha, hw], by simp⟩

theorem BreakFree.within {a t : Text} (ht : BreakFree t) (h : a <:+: t) : BreakFree a :=
  fun w hw hi => ht w hw (hi.trans h)

theorem breakFree_cons_iff {c : Char} {r : Text} :
    BreakFree (c :: r) ↔ (c = '\n' → ¬ Opens r) ∧ BreakFree r := by
  constructor
  · refine fun h => ⟨?_, h.within (List.suffix_cons c r).isInfix⟩
    rintro rfl ⟨w, s, hw, rfl⟩
    exact h w hw ⟨[], s, by simp⟩
  · rintro ⟨h, hr⟩ w hw hi
    rcases List.infix_cons_iff.mp hi with hp | hi
    · obtain ⟨rfl, s, rfl⟩ := List.cons_prefix_cons.mp hp
      exact h rfl ⟨w, s, hw, by simp⟩
    · exact hr w hw hi

/-- A break does not reach over a character that is not blank. -/
theorem breakFree_append_cons_iff {a b : Text} {x : Char} (hx : isBlank x = false) :
    BreakFree (a ++ x :: b) ↔ BreakFree a ∧ BreakFree b := by
  have hmem (w : Text) (hw : AllBlank w) : x ∉ '\n' :: (w ++ ['\n']) := by
    intro hm
    have hall : AllBlank ('\n' :: (w ++ ['\n'])) := by simp [hw]
    simp [hall x hm] at hx
  constructor
  · exact fun h => ⟨h.within (List.prefix_append _ _).isInfix,
      h.within (List.suffix_append_of_suffix (List.suffix_cons x b)).isInfix⟩
  · rintro ⟨ha, hb⟩ w hw hi
    rcases (infix_append_cons_iff (hmem w hw)).mp hi with hi | hi
    · exact ha w hw hi
    · exact hb w hw hi

/-- A break reaches over the last newline it can. -/
theorem exists_last_newline {t : Text} (h : Opens t) :
    ∃ w s, AllBlank w ∧ t = w ++ '\n' :: s ∧ ¬ Opens s := by
  induction hn : t.length using Nat.strongRecOn generalizing t with
  | ind n ih =>
    obtain ⟨w, s, hw, rfl⟩ := h
    by_cases hs : Opens s
    · have hlt : s.length < n := by
        simp only [List.length_append, List.length_cons] at hn
        omega
      obtain ⟨w', s', hw', rfl, hs'⟩ := ih s.length hlt hs rfl
      exact ⟨w ++ '\n' :: w', s', by simp [hw, hw'], by simp, hs'⟩
    · exact ⟨w, s, hw, rfl, hs⟩

theorem newline_notMem_takeWhile {t : Text} (h : ¬ Opens t) : '\n' ∉ t.takeWhile isBlank := by
  intro hm
  obtain ⟨a, b, hab⟩ := List.append_of_mem hm
  refine h ⟨a, b ++ t.dropWhile isBlank, fun c hc => ?_, ?_⟩
  · have hrun : c ∈ t.takeWhile isBlank := hab ▸ List.mem_append_left _ hc
    exact List.mem_takeWhile_imp hrun
  · calc t = t.takeWhile isBlank ++ t.dropWhile isBlank := List.takeWhile_append_dropWhile.symm
      _ = a ++ '\n' :: (b ++ t.dropWhile isBlank) := by simp [hab]

theorem breakLength?_of_not_opens {t : Text} (h : ¬ Opens t) : breakLength? t = none := by
  have hall : (t.takeWhile isBlank).reverse.takeWhile (· ≠ '\n') =
      (t.takeWhile isBlank).reverse := by
    refine List.takeWhile_eq_self_iff.mpr fun c hc => ?_
    have hne : c ≠ '\n' := fun he => newline_notMem_takeWhile h (by simpa [he] using hc)
    simpa using hne
  simp only [breakLength?, hall, List.length_reverse, lt_irrefl, if_false]

theorem breakLength?_of_last {w s : Text} (hw : AllBlank w) (hs : ¬ Opens s) :
    breakLength? (w ++ '\n' :: s) = some (w.length + 1) := by
  have hrun : (w ++ '\n' :: s).takeWhile isBlank = w ++ '\n' :: s.takeWhile isBlank := by
    rw [List.takeWhile_append_of_pos hw]
    simp
  have htail : (w ++ '\n' :: s.takeWhile isBlank).reverse.takeWhile (· ≠ '\n') =
      (s.takeWhile isBlank).reverse := by
    have hnl := newline_notMem_takeWhile hs
    rw [List.reverse_append, List.reverse_cons, List.append_assoc,
      List.takeWhile_append_of_pos (by
        intro c hc
        have hne : c ≠ '\n' := fun he => hnl (by simpa [he] using hc)
        simpa using hne)]
    simp
  simp only [breakLength?, hrun, htail]
  simp only [List.length_reverse, List.length_append, List.length_cons]
  rw [if_pos (by omega)]
  congr 1
  omega

theorem pieces_skip (n : Nat) (t : Text) : pieces n t = pieces 0 (t.drop n) := by
  induction t generalizing n with
  | nil => cases n <;> simp [pieces]
  | cons c r ih => cases n with
    | zero => rfl
    | succ n => simp [pieces, ih]

theorem pieces_break {w s : Text} (hw : AllBlank w) (hs : ¬ Opens s) :
    pieces 0 ('\n' :: (w ++ '\n' :: s)) = [] :: pieces 0 s := by
  simp only [pieces, if_true, breakLength?_of_last hw hs]
  rw [pieces_skip]
  simp

theorem pieces_cons {c : Char} {r p : Text} {ps : List Text} (h : c = '\n' → ¬ Opens r)
    (hr : pieces 0 r = p :: ps) : pieces 0 (c :: r) = (c :: p) :: ps := by
  by_cases hc : c = '\n'
  · simp [pieces, hc, breakLength?_of_not_opens (h hc), hr]
  · simp [pieces, hc, hr]

/-- The pieces between the breaks of a text. -/
inductive Pieces : Text → List Text → Prop where
  | nil : Pieces [] [[]]
  | cut {w s : Text} {ps : List Text} (hw : AllBlank w) (hs : ¬ Opens s) (h : Pieces s ps) :
    Pieces ('\n' :: (w ++ '\n' :: s)) ([] :: ps)
  | char {c : Char} {r p : Text} {ps : List Text} (hc : c = '\n' → ¬ Opens r)
    (h : Pieces r (p :: ps)) : Pieces (c :: r) ((c :: p) :: ps)

theorem Pieces.ne_nil {t : Text} {ps : List Text} (h : Pieces t ps) : ps ≠ [] := by
  cases h <;> simp

theorem Pieces.eq_pieces {t : Text} {ps : List Text} (h : Pieces t ps) : pieces 0 t = ps := by
  induction h with
  | nil => rfl
  | cut hw hs _ ih => rw [pieces_break hw hs, ih]
  | char hc _ ih => exact pieces_cons hc ih

theorem pieces_spec (t : Text) : Pieces t (pieces 0 t) := by
  suffices h : ∃ ps, Pieces t ps by
    obtain ⟨ps, hps⟩ := h
    rwa [hps.eq_pieces]
  induction hn : t.length using Nat.strongRecOn generalizing t with
  | ind n ih =>
    cases t with
    | nil => exact ⟨[[]], .nil⟩
    | cons c r =>
      simp only [List.length_cons] at hn
      by_cases hc : c = '\n' ∧ Opens r
      · obtain ⟨rfl, ho⟩ := hc
        obtain ⟨w, s, hw, rfl, hs⟩ := exists_last_newline ho
        simp only [List.length_append, List.length_cons] at hn
        obtain ⟨ps, hps⟩ := ih s.length (by omega) s rfl
        exact ⟨_, .cut hw hs hps⟩
      · obtain ⟨ps, hps⟩ := ih r.length (by omega) r rfl
        obtain ⟨p, ps, rfl⟩ := List.exists_cons_of_ne_nil hps.ne_nil
        exact ⟨_, .char (fun h ho => hc ⟨h, ho⟩) hps⟩

theorem exists_pieces_cons (t : Text) : ∃ p ps, Pieces t (p :: ps) := by
  have h := pieces_spec t
  obtain ⟨p, ps, hps⟩ := List.exists_cons_of_ne_nil h.ne_nil
  exact ⟨p, ps, hps ▸ h⟩

theorem exists_pieces_concat (t : Text) : ∃ ps l, Pieces t (ps ++ [l]) := by
  have h := pieces_spec t
  rcases List.eq_nil_or_concat (pieces 0 t) with hnil | ⟨ps, l, hps⟩
  · exact absurd hnil h.ne_nil
  · exact ⟨ps, l, by simpa [hps] using h⟩

theorem Pieces.groups_eq {t : Text} {ps : List Text} (h : Pieces t ps) : groups t = ps.map trim := by
  rw [groups, h.eq_pieces]

/-- Cutting at breaks loses blank characters only. -/
theorem Pieces.filter_flatten {t : Text} {ps : List Text} (h : Pieces t ps) {keep : Char → Bool}
    (hk : ∀ c, isBlank c = true → keep c = false) : ps.flatten.filter keep = t.filter keep := by
  induction h with
  | nil => rfl
  | @cut w s ps hw hs _ ih =>
    have hw' : w.filter keep = [] := by
      refine List.filter_eq_nil_iff.mpr fun c hc => ?_
      simp [hk c (hw c hc)]
    simp [ih, hw', hk '\n' (by simp)]
  | char _ _ ih => simp_all [List.filter_cons]

theorem Pieces.head_isPrefix {t p : Text} {ps : List Text} (h : Pieces t (p :: ps)) : p <+: t := by
  generalize hq : p :: ps = qs at h
  induction h generalizing p ps with
  | nil => simp_all
  | cut => simp_all
  | char _ _ ih =>
    obtain ⟨rfl, rfl⟩ := List.cons.inj hq
    exact List.cons_prefix_cons.mpr ⟨rfl, ih rfl⟩

theorem Pieces.breakFree {t : Text} {ps : List Text} (h : Pieces t ps) : ∀ p ∈ ps, BreakFree p := by
  induction h with
  | nil => simp
  | cut hw hs _ ih => simpa using ih
  | @char c r p ps hc hr ih =>
    intro q hq
    rcases List.mem_cons.mp hq with rfl | hq
    · refine breakFree_cons_iff.mpr ⟨fun hn ho => hc hn ?_, ih p (by simp)⟩
      obtain ⟨x, rfl⟩ := hr.head_isPrefix
      exact opens_append_iff.mpr (Or.inl ho)
    · exact ih q (List.mem_cons_of_mem p hq)

theorem breakFree_iff_pieces {t : Text} : BreakFree t ↔ pieces 0 t = [t] := by
  constructor
  · intro h
    induction t with
    | nil => rfl
    | cons c t ih =>
      obtain ⟨hc, ht⟩ := breakFree_cons_iff.mp h
      exact pieces_cons hc (ih ht)
  · intro h
    exact (h ▸ pieces_spec t).breakFree t (by simp)

instance (t : Text) : Decidable (BreakFree t) := decidable_of_iff _ breakFree_iff_pieces.symm

theorem Pieces.last {t : Text} {ps : List Text} (h : Pieces t ps) :
    ps = [t] ∨ ∃ qs l a w, ps = qs ++ [l] ∧ qs ≠ [] ∧ AllBlank w ∧
      t = a ++ '\n' :: (w ++ '\n' :: l) := by
  induction h with
  | nil => simp
  | @cut w s ps hw hs _ ih =>
    right
    rcases ih with rfl | ⟨qs, l, a, v, rfl, hqs, hv, rfl⟩
    · exact ⟨[[]], s, [], w, by simp, by simp, hw, by simp⟩
    · exact ⟨[] :: qs, l, '\n' :: (w ++ '\n' :: a), v, by simp, by simp, hv, by simp⟩
  | @char c r p ps _ _ ih =>
    rcases ih with hps | ⟨qs, l, a, v, hps, hqs, hv, rfl⟩
    · simp_all
    · right
      obtain ⟨q, qs, rfl⟩ := List.exists_cons_of_ne_nil hqs
      obtain ⟨rfl, rfl⟩ := List.cons.inj hps
      exact ⟨(c :: p) :: qs, l, c :: a, v, by simp, by simp, hv, by simp⟩

end Bulletin.Card
