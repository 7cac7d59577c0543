import Bulletin.Proofs.Text.Split
import Bulletin.Proofs.Text.Trim

/-! Line endings of two characters. A carriage return in front of every newline is blank, stands on
the line that the newline ends, and belongs to no token; so trimming, splitting and cutting give the
same parts, with these line endings in them. -/

namespace Bulletin.Text

def crlf (t : Text) : Text := t.flatMap fun c => if c = '\n' then ['\r', '\n'] else [c]

@[simp] theorem crlf_nil : crlf [] = [] := rfl

@[simp] theorem crlf_append (a b : Text) : crlf (a ++ b) = crlf a ++ crlf b := by simp [crlf]

@[simp] theorem crlf_newline (t : Text) : crlf ('\n' :: t) = '\r' :: '\n' :: crlf t := rfl

theorem crlf_cons {c : Char} (hc : c ≠ '\n') (t : Text) : crlf (c :: t) = c :: crlf t := by
  simp [crlf, hc]

theorem crlf_of_line {t : Text} (h : '\n' ∉ t) : crlf t = t := by
  induction t with
  | nil => rfl
  | cons c t ih =>
    simp only [List.mem_cons, not_or] at h
    rw [crlf_cons (Ne.symm h.1), ih h.2]

theorem crlf_append_newline {a : Text} (b : Text) (ha : '\n' ∉ a) :
    crlf (a ++ '\n' :: b) = a ++ ['\r'] ++ '\n' :: crlf b := by
  rw [crlf_append, crlf_of_line ha, crlf_newline, List.append_assoc]
  rfl

@[simp] theorem crlf_eq_nil_iff {t : Text} : crlf t = [] ↔ t = [] := by
  cases t with
  | nil => simp
  | cons c t => by_cases hc : c = '\n' <;> simp [crlf, hc]

theorem mem_crlf_iff {c : Char} {t : Text} (hc : c ≠ '\r') : c ∈ crlf t ↔ c ∈ t := by
  induction t with
  | nil => simp
  | cons d t ih =>
    by_cases hd : d = '\n'
    · simp [hd, hc, ih]
    · simp [crlf_cons hd, ih]

@[simp] theorem allBlank_crlf {t : Text} : AllBlank (crlf t) ↔ AllBlank t := by
  induction t with
  | nil => simp
  | cons c t ih =>
    by_cases hc : c = '\n'
    · simp [hc, ih]
    · simp [crlf_cons hc, ih]

theorem Trimmed.crlf {t : Text} (h : Trimmed t) : Trimmed (crlf t) := by
  constructor
  · cases t with
    | nil => simp
    | cons c t =>
      have hc := h.not_blank_head
      have hn : c ≠ '\n' := by
        rintro rfl
        simp at hc
      simpa [crlf_cons hn] using hc
  · rcases List.eq_nil_or_concat t with rfl | ⟨t, c, rfl⟩
    · simp
    · rw [List.concat_eq_append] at h ⊢
      have hc := h.not_blank_last
      have hn : c ≠ '\n' := by
        rintro rfl
        simp at hc
      simpa [crlf_cons hn] using hc

theorem trim_crlf (t : Text) : trim (crlf t) = crlf (trim t) := by
  obtain ⟨a, b, ha, hb, h⟩ := exists_trim t
  calc trim (crlf t) = trim (crlf a ++ crlf (trim t) ++ crlf b) := by
        rw [← crlf_append, ← crlf_append, ← h]
    _ = crlf (trim t) :=
        (trimmed_trim t).crlf.trim_pad (allBlank_crlf.mpr ha) (allBlank_crlf.mpr hb)

theorem splitOn_crlf {mark : Char} (hn : mark ≠ '\n') (hr : mark ≠ '\r') (t : Text) :
    splitOn mark (crlf t) = (splitOn mark t).map crlf := by
  induction t using split_induction mark with
  | piece a ha =>
    have ha' : mark ∉ crlf a := fun hm => ha ((mem_crlf_iff hr).mp hm)
    rw [splitOn_of_notMem ha, splitOn_of_notMem ha', List.map_singleton]
  | cut a b ha ih =>
    have ha' : mark ∉ crlf a := fun hm => ha ((mem_crlf_iff hr).mp hm)
    rw [crlf_append, crlf_cons hn, splitOn_append_mark, splitOn_append_mark, splitOn_of_notMem ha,
      splitOn_of_notMem ha', ih, List.map_append, List.map_singleton]

/-- A token on one line that does not end within a line ending begins where it began. -/
theorem prefix_crlf_iff {token t : Text} (hn : '\n' ∉ token) (hr : token.getLast? ≠ some '\r') :
    token <+: crlf t ↔ token <+: t := by
  induction t generalizing token with
  | nil => simp
  | cons c t ih =>
    cases token with
    | nil => simp
    | cons x token =>
      simp only [List.mem_cons, not_or] at hn
      by_cases hc : c = '\n'
      · have hne : ¬ x :: token <+: '\r' :: '\n' :: crlf t := by
          intro h
          obtain ⟨rfl, hrest⟩ := List.cons_prefix_cons.mp h
          cases token with
          | nil => simp at hr
          | cons y token =>
            obtain rfl : y = '\n' := (List.cons_prefix_cons.mp hrest).1
            simp at hn
        simp [hc, hne, List.cons_prefix_cons, Ne.symm hn.1]
      · have hr' : token.getLast? ≠ some '\r' := by
          cases token with
          | nil => simp
          | cons y token => simpa using hr
        rw [crlf_cons hc, List.cons_prefix_cons, List.cons_prefix_cons, ih hn.2 hr']

theorem cut?_crlf {token : Text} (hne : token ≠ []) (hn : '\n' ∉ token)
    (hr : token.getLast? ≠ some '\r') (t : Text) :
    cut? (crlf t) token = (cut? t token).map fun p => (crlf p.1, crlf p.2) := by
  have hfound : ∀ s, cut? (token ++ s) token = some ([], s) := fun s =>
    @cut?_append token [] s hne fun x hx hsuffix => absurd (List.suffix_nil.mp hsuffix) hx
  induction t with
  | nil => simp [cut?, hne]
  | cons c t ih =>
    have hpre : token <+: crlf (c :: t) ↔ token <+: c :: t := prefix_crlf_iff hn hr
    by_cases hp : token <+: c :: t
    · obtain ⟨s, hs⟩ := hp
      rw [← hs, crlf_append, crlf_of_line hn, hfound, hfound]
      rfl
    · have hp' : ¬ token <+: crlf (c :: t) := fun h => hp (hpre.mp h)
      rw [cut?_cons_skip hp, Option.map_map]
      by_cases hc : c = '\n'
      · have hnewline : ¬ token <+: '\n' :: crlf t := by
          intro h
          obtain ⟨x, token, rfl⟩ := List.exists_cons_of_ne_nil hne
          obtain rfl : x = '\n' := (List.cons_prefix_cons.mp h).1
          simp at hn
        subst hc
        rw [crlf_newline] at hp' ⊢
        rw [cut?_cons_skip hp', cut?_cons_skip hnewline, ih, Option.map_map, Option.map_map]
        rfl
      · rw [crlf_cons hc] at hp' ⊢
        rw [cut?_cons_skip hp', ih, Option.map_map]
        refine Option.map_congr fun p _ => ?_
        simp [crlf_cons hc]

/-- The first line keeps its length but for the carriage return at its end, so it is cut at the same
mark. -/
theorem cutLine?_crlf {mark : Char} (hn : mark ≠ '\n') (hr : mark ≠ '\r') (t : Text) :
    cutLine? (crlf t) [mark] = (cutLine? t [mark]).map fun p => (p.1, crlf p.2) := by
  induction t with
  | nil => simp [cutLine?]
  | cons c t ih =>
    by_cases hc : c = '\n'
    · simp [hc, cutLine?_cons_of_ne hn.symm, cutLine?_cons_of_ne hr.symm]
    · rw [crlf_cons hc]
      by_cases hm : c = mark
      · simp [hm, cutLine?_cons_mark]
      · simp only [cutLine?_cons_of_ne hm, if_neg hc, ih, Option.map_map]
        rfl

def dropReturns (t : Text) : Text := t.filter (· ≠ '\r')

@[simp] theorem dropReturns_append (a b : Text) :
    dropReturns (a ++ b) = dropReturns a ++ dropReturns b := by simp [dropReturns]

theorem dropReturns_eq_self_iff {t : Text} : dropReturns t = t ↔ '\r' ∉ t := by
  rw [dropReturns, List.filter_eq_self]
  constructor
  · intro h hm
    simpa using h '\r' hm
  · intro h c hc
    simpa using fun he : c = '\r' => h (he ▸ hc)

theorem return_notMem_dropReturns (t : Text) : '\r' ∉ dropReturns t := by simp [dropReturns]

theorem dropReturns_crlf {t : Text} (h : '\r' ∉ t) : dropReturns (crlf t) = t := by
  induction t with
  | nil => rfl
  | cons c t ih =>
    simp only [List.mem_cons, not_or] at h
    by_cases hc : c = '\n'
    · simpa [hc, dropReturns] using ih h.2
    · simpa [crlf_cons hc, dropReturns, Ne.symm h.1] using ih h.2

end Bulletin.Text
