import Bulletin.Text.Basic

/-! Cutting a text. The pieces between the occurrences of a mark hold no mark, and joined by marks
they are the text again. A cut at a token is a cut at its first occurrence, and it fails exactly
where the token does not occur. -/

namespace Bulletin.Text

theorem splitOn_eq (mark : Char) (t : Text) : splitOn mark t = List.splitOn mark t := by
  induction t with
  | nil => rfl
  | cons c r ih =>
    rw [List.splitOn_cons_eq_if_modifyHead, ← ih]
    by_cases h : c = mark
    · simp [splitOn, h]
    · cases hs : splitOn mark r with
      | nil => exact absurd hs (splitOn_ne_nil mark r)
      | cons piece rest => simp [splitOn, h, hs]

theorem splitOn_of_notMem {mark : Char} {t : Text} (h : mark ∉ t) : splitOn mark t = [t] := by
  rw [splitOn_eq, List.splitOn_eq_singleton h]

theorem splitOn_append_mark (mark : Char) (a b : Text) :
    splitOn mark (a ++ mark :: b) = splitOn mark a ++ splitOn mark b := by
  simp only [splitOn_eq, List.splitOn_append_cons_self]

theorem splitOn_append_of_notMem {mark : Char} {a b p : Text} {ps : List Text} (ha : mark ∉ a)
    (hb : splitOn mark b = p :: ps) : splitOn mark (a ++ b) = (a ++ p) :: ps := by
  induction a with
  | nil => exact hb
  | cons c a ih =>
    simp only [List.mem_cons, not_or] at ha
    simp [splitOn, Ne.symm ha.1, ih ha.2]

/-- A text holds no mark, or it is cut at its first mark and the rest is shorter. -/
theorem split_induction (mark : Char) {P : Text → Prop} (piece : ∀ a, mark ∉ a → P a)
    (cut : ∀ a b, mark ∉ a → P b → P (a ++ mark :: b)) (t : Text) : P t := by
  induction hn : t.length using Nat.strongRecOn generalizing t with
  | ind n ih =>
    by_cases h : mark ∈ t
    · obtain ⟨a, b, rfl, ha⟩ := List.eq_append_cons_of_mem h
      refine cut a b ha (ih b.length ?_ b rfl)
      simp only [List.length_append, List.length_cons] at hn
      omega
    · exact piece t h

theorem notMem_of_mem_splitOn {mark : Char} {t p : Text} (h : p ∈ splitOn mark t) : mark ∉ p := by
  induction t using split_induction mark with
  | piece a ha => simp_all [splitOn_of_notMem]
  | cut a b ha ih =>
    rw [splitOn_append_mark, splitOn_of_notMem ha] at h
    rcases List.mem_cons.mp h with rfl | h
    · exact ha
    · exact ih h

theorem infix_of_mem_splitOn {mark : Char} {t p : Text} (h : p ∈ splitOn mark t) : p <:+: t := by
  induction t using split_induction mark with
  | piece a ha => simp_all [splitOn_of_notMem]
  | cut a b ha ih =>
    rw [splitOn_append_mark, splitOn_of_notMem ha] at h
    rcases List.mem_cons.mp h with rfl | h
    · exact (List.prefix_append p (mark :: b)).isInfix
    · exact (ih h).trans (List.suffix_append_of_suffix (List.suffix_cons mark b)).isInfix

theorem eq_takeWhile_of_splitOn {mark : Char} {t p : Text} {ps : List Text}
    (h : splitOn mark t = p :: ps) : p = t.takeWhile (· ≠ mark) := by
  induction t generalizing p ps with
  | nil => simp_all [splitOn]
  | cons c r ih =>
    by_cases hc : c = mark
    · simp_all [splitOn]
    · obtain ⟨q, qs, hr⟩ := List.exists_cons_of_ne_nil (splitOn_ne_nil mark r)
      have hq : q = r.takeWhile (· ≠ mark) := ih hr
      simp_all [splitOn]

theorem takeWhile_append_of_notMem {mark : Char} {a b : Text} (h : mark ∉ a) :
    (a ++ mark :: b).takeWhile (· ≠ mark) = a := by
  have hall : ∀ c ∈ a, decide (c ≠ mark) = true := by
    intro c hc
    simpa using fun he : c = mark => h (he ▸ hc)
  rw [List.takeWhile_append_of_pos hall]
  simp

theorem lines_append_newline (a b : Text) : lines (a ++ '\n' :: b) = lines a ++ lines b :=
  splitOn_append_mark '\n' a b

theorem lines_of_notMem {t : Text} (h : '\n' ∉ t) : lines t = [t] := splitOn_of_notMem h

theorem lines_intercalate {ls : List Text} (hne : ls ≠ []) (h : ∀ l ∈ ls, '\n' ∉ l) :
    lines (['\n'].intercalate ls) = ls := by
  rw [lines, splitOn_eq, List.splitOn_intercalate '\n' h hne]

theorem cut?_cons_found {token r : Text} {c : Char} (h : token <+: c :: r) :
    cut? (c :: r) token = some ([], (c :: r).drop token.length) := by
  simp [cut?, List.isPrefixOf_iff_prefix, h]

theorem cut?_cons_skip {token r : Text} {c : Char} (h : ¬ token <+: c :: r) :
    cut? (c :: r) token = (cut? r token).map fun p => (c :: p.1, p.2) := by
  simp [cut?, List.isPrefixOf_iff_prefix, h]

theorem cut?_eq_none_iff {t token : Text} : cut? t token = none ↔ ¬ token <:+: t := by
  induction t with
  | nil => by_cases h : token = [] <;> simp [cut?, h]
  | cons c r ih =>
    by_cases h : token <+: c :: r
    · simp [cut?_cons_found h, h.isInfix]
    · simp [cut?_cons_skip h, List.infix_cons_iff, h, ih]

theorem not_infix_of_cut? {t token before after : Text} (hne : token ≠ [])
    (h : cut? t token = some (before, after)) : ¬ token <:+: before := by
  induction t generalizing before with
  | nil => simp [cut?, hne] at h
  | cons c r ih =>
    by_cases hp : token <+: c :: r
    · simp only [cut?_cons_found hp, Option.some.injEq, Prod.mk.injEq] at h
      simp [← h.1, hne]
    · rw [cut?_cons_skip hp] at h
      obtain ⟨⟨p, q⟩, hcut, heq⟩ := Option.map_eq_some_iff.mp h
      obtain ⟨rfl, rfl⟩ := Prod.mk.inj heq
      intro hi
      rcases List.infix_cons_iff.mp hi with hi | hi
      · refine hp (hi.trans ?_)
        rw [eq_append_of_cut? hcut]
        exact ⟨token ++ q, by simp⟩
      · exact ih hcut hi

theorem cut?_append {token before after : Text} (hne : token ≠ [])
    (h : ∀ s, s ≠ [] → s <:+ before → ¬ token <+: s ++ (token ++ after)) :
    cut? (before ++ (token ++ after)) token = some (before, after) := by
  induction before with
  | nil =>
    obtain ⟨c, r, rfl⟩ := List.exists_cons_of_ne_nil hne
    have hp : c :: r <+: c :: (r ++ after) := List.prefix_append (c :: r) after
    simp [cut?_cons_found hp]
  | cons c r ih =>
    have hc := h (c :: r) (by simp) (List.suffix_refl _)
    rw [List.cons_append] at hc ⊢
    rw [cut?_cons_skip hc,
      ih fun s hs hsr => h s hs (hsr.trans (List.suffix_cons c r))]
    rfl

theorem cut?_of_notMem {x : Char} {token a b : Text} (h : x ∉ a) :
    cut? (a ++ (x :: token ++ b)) (x :: token) = some (a, b) := by
  refine cut?_append (by simp) fun s hs hsuffix hp => ?_
  obtain ⟨c, s, rfl⟩ := List.exists_cons_of_ne_nil hs
  obtain ⟨rfl, -⟩ := List.cons_prefix_cons.mp hp
  exact h (hsuffix.subset List.mem_cons_self)

theorem cut?_mark {mark : Char} {a b : Text} (h : mark ∉ a) :
    cut? (a ++ mark :: b) [mark] = some (a, b) := @cut?_of_notMem mark [] a b h

/-- A token that begins before a character it does not hold ends before it. -/
theorem prefix_of_prefix_append_cons {token a b : Text} {x : Char} (hx : x ∉ token)
    (h : token <+: a ++ x :: b) : token <+: a := by
  induction a generalizing token with
  | nil =>
    rcases List.prefix_cons_iff.mp h with rfl | ⟨token', rfl, -⟩
    · exact List.nil_prefix
    · simp at hx
  | cons c a ih =>
    rcases List.prefix_cons_iff.mp h with rfl | ⟨token', rfl, h'⟩
    · exact List.nil_prefix
    · exact List.cons_prefix_cons.mpr ⟨rfl, ih (fun hm => hx (List.mem_cons_of_mem c hm)) h'⟩

/-- A token does not reach over a character that it does not hold. -/
theorem infix_append_cons_iff {token a b : Text} {x : Char} (hx : x ∉ token) :
    token <:+: a ++ x :: b ↔ token <:+: a ∨ token <:+: b := by
  constructor
  · intro h
    induction a with
    | nil =>
      rcases List.infix_cons_iff.mp h with hp | hi
      · exact Or.inl (prefix_of_prefix_append_cons hx (a := []) hp).isInfix
      · exact Or.inr hi
    | cons c a ih =>
      rcases List.infix_cons_iff.mp h with hp | hi
      · exact Or.inl (prefix_of_prefix_append_cons hx (a := c :: a) hp).isInfix
      · rcases ih hi with ha | hb
        · exact Or.inl (List.infix_cons ha)
        · exact Or.inr hb
  · rintro (h | h)
    · exact h.trans (List.prefix_append a (x :: b)).isInfix
    · exact h.trans (List.suffix_append_of_suffix (List.suffix_cons x b)).isInfix

theorem infix_of_infix_append_left {token g t : Text} (hne : token ≠ [])
    (hg : ∀ c ∈ g, c ∉ token) (h : token <:+: g ++ t) : token <:+: t := by
  induction g with
  | nil => exact h
  | cons c g ih =>
    rcases (infix_append_cons_iff (a := []) (hg c (by simp))).mp h with hi | hi
    · exact absurd (List.infix_nil.mp hi) hne
    · exact ih (fun d hd => hg d (List.mem_cons_of_mem c hd)) hi

theorem infix_of_infix_append_right {token t g : Text} (hne : token ≠ [])
    (hg : ∀ c ∈ g, c ∉ token) (h : token <:+: t ++ g) : token <:+: t := by
  cases g with
  | nil => simpa using h
  | cons c g =>
    rcases (infix_append_cons_iff (hg c (by simp))).mp h with hi | hi
    · exact hi
    · have hnil : token <:+: [] := infix_of_infix_append_left hne
        (fun d hd => hg d (List.mem_cons_of_mem c hd)) (by simpa using hi)
      exact absurd (List.infix_nil.mp hnil) hne

/-- A character that the token does not hold keeps an earlier occurrence apart from the token. -/
theorem cut?_fence {token before after : Text} {x : Char} (hne : token ≠ []) (hx : x ∉ token)
    (h : ¬ token <:+: before) :
    cut? (before ++ x :: (token ++ after)) token = some (before ++ [x], after) := by
  have hstart : ∀ s, s ≠ [] → s <:+ before ++ [x] → ¬ token <+: s ++ (token ++ after) := by
    intro s hs hsuf hp
    rcases List.suffix_concat_iff.mp hsuf with rfl | ⟨s', rfl, hs'⟩
    · exact hs rfl
    · rw [List.append_assoc] at hp
      exact h ((prefix_of_prefix_append_cons hx hp).isInfix.trans hs'.isInfix)
  simpa using cut?_append hne hstart

/-- A token that begins with a character of which it holds no other is found where it is first
written: what stands before it cannot run into it. -/
theorem cut?_first {x : Char} {token before after : Text} (hx : x ∉ token)
    (h : ¬ x :: token <:+: before) :
    cut? (before ++ (x :: token ++ after)) (x :: token) = some (before, after) := by
  apply cut?_append (by simp)
  intro s hs hsuffix hp
  obtain ⟨y, s, rfl⟩ := List.exists_cons_of_ne_nil hs
  obtain ⟨rfl, htail⟩ := List.cons_prefix_cons.mp hp
  have hs' : token <+: s := prefix_of_prefix_append_cons hx htail
  have hwhole : x :: token <+: x :: s := List.cons_prefix_cons.mpr ⟨rfl, hs'⟩
  exact h (hwhole.isInfix.trans hsuffix.isInfix)

theorem suffix_of_cut? {token x y a b : Text} (h : cut? (x ++ (token ++ y)) token = some (a, b)) :
    y <:+ b := by
  induction x generalizing a with
  | nil =>
    cases token with
    | nil => cases y <;> simp_all [cut?]
    | cons c r =>
      have hp : c :: r <+: c :: (r ++ y) := List.prefix_append (c :: r) y
      rw [List.nil_append, List.cons_append, cut?_cons_found hp] at h
      simp_all
  | cons c x ih =>
    rw [List.cons_append] at h
    by_cases hp : token <+: c :: (x ++ (token ++ y))
    · rw [cut?_cons_found hp] at h
      obtain ⟨-, rfl⟩ := Prod.mk.inj (Option.some.inj h)
      have hy : y <:+ c :: (x ++ (token ++ y)) := ⟨c :: (x ++ token), by simp⟩
      refine List.suffix_of_suffix_length_le hy (List.drop_suffix _ _) ?_
      simp only [List.length_drop, List.length_cons, List.length_append]
      omega
    · rw [cut?_cons_skip hp] at h
      obtain ⟨⟨p, q⟩, hcut, heq⟩ := Option.map_eq_some_iff.mp h
      obtain ⟨rfl, rfl⟩ := Prod.mk.inj heq
      exact ih hcut

theorem cut?_append_right {token t a b : Text} (h : cut? t token = some (a, b)) (r : Text) :
    cut? (t ++ r) token = some (a, b ++ r) := by
  induction t generalizing a with
  | nil =>
    cases token with
    | nil =>
      obtain ⟨rfl, rfl⟩ : [] = a ∧ [] = b := by simpa [cut?] using h
      cases r <;> simp [cut?]
    | cons x token => simp [cut?] at h
  | cons c t ih =>
    have hlen : token.length ≤ (c :: t).length := by
      rw [eq_append_of_cut? h]
      simp only [List.length_append]
      omega
    by_cases hp : token <+: c :: t
    · have hp' : token <+: c :: (t ++ r) := hp.trans (List.prefix_append (c :: t) r)
      rw [cut?_cons_found hp] at h
      obtain ⟨rfl, rfl⟩ := Prod.mk.inj (Option.some.inj h)
      rw [List.cons_append, cut?_cons_found hp', ← List.cons_append,
        List.drop_append_of_le_length hlen]
    · have hp' : ¬ token <+: c :: (t ++ r) := fun hr =>
        hp (List.prefix_of_prefix_length_le hr (List.prefix_append (c :: t) r) hlen)
      rw [cut?_cons_skip hp] at h
      obtain ⟨⟨p, q⟩, hcut, heq⟩ := Option.map_eq_some_iff.mp h
      obtain ⟨rfl, rfl⟩ := Prod.mk.inj heq
      rw [List.cons_append, cut?_cons_skip hp', ih hcut]
      rfl

theorem cutLine?_cons_found {token r : Text} {c : Char} (h : token <+: c :: r) :
    cutLine? (c :: r) token = some ([], (c :: r).drop token.length) := by
  simp [cutLine?, List.isPrefixOf_iff_prefix, h]

theorem cutLine?_cons_skip {token r : Text} {c : Char} (h : ¬ token <+: c :: r) (hc : c ≠ '\n') :
    cutLine? (c :: r) token = (cutLine? r token).map fun p => (c :: p.1, p.2) := by
  simp [cutLine?, List.isPrefixOf_iff_prefix, h, hc]

/-- A token of one line begins on a line exactly where it is the beginning of what is left of it. -/
theorem prefix_line_append_iff {token l r : Text} (hn : '\n' ∉ token)
    (hr : ∀ c ∈ r.head?, c = '\n') : token <+: l ++ r ↔ token <+: l := by
  refine ⟨fun h => ?_, fun h => h.trans (List.prefix_append l r)⟩
  cases r with
  | nil => simpa using h
  | cons c r =>
    obtain rfl : c = '\n' := hr c rfl
    exact prefix_of_prefix_append_cons hn h

/-- A line is cut at a token as if no other line came after it. -/
theorem cutLine?_line_append {token l r : Text} (hne : token ≠ []) (hn : '\n' ∉ token)
    (hl : '\n' ∉ l) (hr : ∀ c ∈ r.head?, c = '\n') :
    cutLine? (l ++ r) token = (cut? l token).map fun p => (p.1, p.2 ++ r) := by
  induction l with
  | nil =>
    have hp : ¬ token <+: r := fun h =>
      hne (List.prefix_nil.mp ((prefix_line_append_iff (l := []) hn hr).mp h))
    cases r with
    | nil => simp [cutLine?, cut?, hne]
    | cons c r =>
      obtain rfl : c = '\n' := hr c rfl
      simp [cutLine?, cut?, hne, List.isPrefixOf_iff_prefix, hp]
  | cons c l ih =>
    simp only [List.mem_cons, not_or] at hl
    have hpre : token <+: c :: (l ++ r) ↔ token <+: c :: l := prefix_line_append_iff (l := c :: l) hn hr
    by_cases hp : token <+: c :: l
    · rw [List.cons_append, cutLine?_cons_found (hpre.mpr hp), cut?_cons_found hp, Option.map_some,
        ← List.cons_append, List.drop_append_of_le_length hp.length_le]
    · rw [List.cons_append, cutLine?_cons_skip (fun h => hp (hpre.mp h)) (Ne.symm hl.1),
        cut?_cons_skip hp, ih hl.2, Option.map_map, Option.map_map]
      rfl

theorem cutLine?_cons_mark (mark : Char) (r : Text) :
    cutLine? (mark :: r) [mark] = some ([], r) := by
  simp [cutLine?]

theorem cutLine?_cons_of_ne {mark c : Char} {r : Text} (h : c ≠ mark) :
    cutLine? (c :: r) [mark] =
      if c = '\n' then none else (cutLine? r [mark]).map fun p => (c :: p.1, p.2) := by
  simp [cutLine?, Ne.symm h]

theorem cutLine?_of_notMem {x : Char} {token a b : Text} (hx : x ∉ a) (hn : '\n' ∉ a) :
    cutLine? (a ++ (x :: token ++ b)) (x :: token) = some (a, b) := by
  induction a with
  | nil =>
    have hp : x :: token <+: x :: (token ++ b) := List.prefix_append (x :: token) b
    simp [cutLine?_cons_found hp]
  | cons c a ih =>
    simp only [List.mem_cons, not_or] at hx hn
    have hp : ¬ x :: token <+: c :: (a ++ (x :: token ++ b)) :=
      fun hp => hx.1 (List.cons_prefix_cons.mp hp).1
    rw [List.cons_append, cutLine?_cons_skip hp (Ne.symm hn.1), ih hx.2 hn.2]
    rfl

theorem cutLine?_append {mark : Char} {a b : Text} (hm : mark ∉ a) (hn : '\n' ∉ a) :
    cutLine? (a ++ mark :: b) [mark] = some (a, b) := @cutLine?_of_notMem mark [] a b hm hn

theorem cutLine?_eq_some {mark : Char} {t a b : Text} (h : cutLine? t [mark] = some (a, b)) :
    t = a ++ mark :: b ∧ mark ∉ a ∧ '\n' ∉ a := by
  refine ⟨by simpa using eq_append_of_cutLine? h, ?_⟩
  induction t generalizing a with
  | nil => simp [cutLine?] at h
  | cons c r ih =>
    by_cases hc : c = mark
    · rw [hc, cutLine?_cons_mark] at h
      simp_all
    · rw [cutLine?_cons_of_ne hc] at h
      split at h
      case isTrue => simp at h
      case isFalse hn =>
        obtain ⟨⟨p, q⟩, hcut, heq⟩ := Option.map_eq_some_iff.mp h
        obtain ⟨rfl, rfl⟩ := Prod.mk.inj heq
        simp [Ne.symm hc, Ne.symm hn, ih hcut]

theorem cutLine?_eq_none_iff {mark : Char} (hm : mark ≠ '\n') {t : Text} :
    cutLine? t [mark] = none ↔ mark ∉ t.takeWhile (· ≠ '\n') := by
  induction t with
  | nil => simp [cutLine?]
  | cons c r ih =>
    by_cases hc : c = mark
    · subst hc
      simp [cutLine?_cons_mark, hm]
    · rw [cutLine?_cons_of_ne hc]
      by_cases hn : c = '\n'
      · simp [hn]
      · simpa [hn, Ne.symm hc] using ih

end Bulletin.Text
