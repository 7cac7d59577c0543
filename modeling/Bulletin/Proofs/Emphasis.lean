import Bulletin.Markup
import Mathlib.Data.List.Basic

/-! What a pass of emphasis does to a text: it writes tags in the place of some of the markers, and
keeps every other character where it is. -/

namespace Bulletin.Marker

variable {mk : Marker}

/-- `mk.Tagged t m`: the text `m` is `t` with tags in the place of some of the markers. -/
inductive Tagged (mk : Marker) : Text → Text → Prop where
  | nil : Tagged mk [] []
  | char (c : Char) {t m : Text} (h : Tagged mk t m) : Tagged mk (c :: t) (c :: m)
  | tag {tag t m : Text} (ht : tag = mk.opening ∨ tag = mk.closing) (h : Tagged mk t m) :
    Tagged mk (mk.token ++ t) (tag ++ m)

theorem Tagged.append_left (a : Text) {t m : Text} (h : mk.Tagged t m) :
    mk.Tagged (a ++ t) (a ++ m) := by
  induction a with
  | nil => exact h
  | cons c a ih => exact .char c ih

theorem exists_of_span? {t inner : Text} (h : mk.span? t = some inner) :
    ∃ after, t = mk.token ++ (inner ++ (mk.token ++ after)) := by
  unfold span? at h
  split at h
  case isFalse => simp at h
  case isTrue hp =>
    obtain ⟨r, rfl⟩ := List.isPrefixOf_iff_prefix.mp hp
    obtain ⟨⟨before, after⟩, hcut, rfl⟩ := Option.map_eq_some_iff.mp h
    rw [List.drop_left] at hcut
    exact ⟨after, by simp [Text.eq_append_of_cutLine? hcut]⟩

theorem apply_of_span (hne : mk.token ≠ []) {c : Char} {r inner after : Text}
    (h : mk.span? (c :: r) = some inner)
    (hr : c :: r = mk.token ++ (inner ++ (mk.token ++ after))) :
    mk.apply (c :: r) = mk.opening ++ (inner ++ (mk.closing ++ mk.apply after)) := by
  have hpos : 0 < mk.token.length := List.length_pos_iff.mpr hne
  have hdrop : r.drop (inner.length + 2 * mk.token.length - 1) = after := by
    calc r.drop (inner.length + 2 * mk.token.length - 1)
        = (c :: r).drop (inner.length + 2 * mk.token.length - 1 + 1) := rfl
      _ = (mk.token ++ inner ++ mk.token ++ after).drop (mk.token ++ inner ++ mk.token).length := by
        rw [hr, List.length_append, List.length_append]
        congr 1
        · omega
        · simp
      _ = after := List.drop_left
  simp only [apply, pass, h, pass_skip mk _ r, hdrop, List.append_assoc]

theorem apply_of_no_span {c : Char} {r : Text} (h : mk.span? (c :: r) = none) :
    mk.apply (c :: r) = c :: mk.apply r := by
  simp [apply, pass, h]

/-- `mk.Paired t m`: the text `m` is `t` with pairs of tags in the place of some pairs of markers,
no pair within another. -/
inductive Paired (mk : Marker) : Text → Text → Prop where
  | nil : Paired mk [] []
  | char (c : Char) {t m : Text} (h : Paired mk t m) : Paired mk (c :: t) (c :: m)
  | span (inner : Text) {t m : Text} (h : Paired mk t m) :
    Paired mk (mk.token ++ (inner ++ (mk.token ++ t)))
      (mk.opening ++ (inner ++ (mk.closing ++ m)))

theorem Paired.tagged {t m : Text} (h : mk.Paired t m) : mk.Tagged t m := by
  induction h with
  | nil => exact .nil
  | char c _ ih => exact .char c ih
  | span inner _ ih => exact .tag (.inl rfl) ((Tagged.tag (.inr rfl) ih).append_left inner)

/-- Emphasis writes pairs of tags in the place of pairs of markers and changes nothing else. -/
theorem paired_apply (hne : mk.token ≠ []) (t : Text) : mk.Paired t (mk.apply t) := by
  induction hn : t.length using Nat.strongRecOn generalizing t with
  | ind n ih =>
    cases t with
    | nil => simpa [apply] using Paired.nil
    | cons c r =>
      cases h : mk.span? (c :: r) with
      | none =>
        rw [apply_of_no_span h]
        exact .char c (ih r.length (by simp [← hn]) r rfl)
      | some inner =>
        obtain ⟨after, hr⟩ := exists_of_span? h
        have hlen := congrArg List.length hr
        simp only [List.length_append] at hlen
        have hpos : 0 < mk.token.length := List.length_pos_iff.mpr hne
        have hafter : mk.Paired after (mk.apply after) :=
          ih after.length (by omega) after rfl
        rw [apply_of_span hne h hr, hr]
        exact .span inner hafter

theorem tagged_apply (hne : mk.token ≠ []) (t : Text) : mk.Tagged t (mk.apply t) :=
  (paired_apply hne t).tagged

theorem Tagged.mem_or {t m : Text} {c : Char} (h : mk.Tagged t m) (hc : c ∈ m) :
    c ∈ t ∨ c ∈ mk.opening ∨ c ∈ mk.closing := by
  induction h with
  | nil => simp at hc
  | char d _ ih =>
    rcases List.mem_cons.mp hc with rfl | hm
    · exact Or.inl List.mem_cons_self
    · exact (ih hm).imp_left (List.mem_cons_of_mem d)
  | tag htag _ ih =>
    rcases List.mem_append.mp hc with hm | hm
    · rcases htag with rfl | rfl
      · exact Or.inr (Or.inl hm)
      · exact Or.inr (Or.inr hm)
    · exact (ih hm).imp_left (List.mem_append_right mk.token)

theorem notMem_apply (hne : mk.token ≠ []) {c : Char} {t : Text} (ho : c ∉ mk.opening)
    (hc : c ∉ mk.closing) (h : c ∉ t) : c ∉ mk.apply t := by
  intro hm
  rcases (tagged_apply hne t).mem_or hm with hm | hm | hm
  · exact h hm
  · exact ho hm
  · exact hc hm

theorem Tagged.through {a r m : Text} (hne : mk.token ≠ []) (ha : ∀ c ∈ mk.token, c ∉ a)
    (h : mk.Tagged (a ++ r) m) : ∃ m', m = a ++ m' ∧ mk.Tagged r m' := by
  induction a generalizing m with
  | nil => exact ⟨m, rfl, h⟩
  | cons c a ih =>
    have ha' : ∀ d ∈ mk.token, d ∉ a := fun d hd hm => ha d hd (List.mem_cons_of_mem c hm)
    generalize ht : c :: a ++ r = t at h
    cases h with
    | nil => simp at ht
    | char d hm =>
      obtain ⟨rfl, rfl⟩ := List.cons.inj ht
      obtain ⟨m', rfl, hm'⟩ := ih ha' hm
      exact ⟨m', rfl, hm'⟩
    | tag htag hm =>
      obtain ⟨d, ds, hd⟩ := List.exists_cons_of_ne_nil hne
      rw [hd] at ht
      obtain rfl : c = d := (List.cons.inj ht).1
      exact absurd (List.mem_cons_self) (ha c (by simp [hd]))

theorem apply_of_unmarked {t : Text} (hne : mk.token ≠ []) (h : ∀ c ∈ mk.token, c ∉ t) :
    mk.apply t = t := by
  have htagged : mk.Tagged (t ++ []) (mk.apply t) := by simpa using tagged_apply hne t
  obtain ⟨m, hm, hnil⟩ := htagged.through hne h
  generalize hx : [] = x at hnil
  cases hnil with
  | nil => simpa using hm
  | char => simp at hx
  | tag => exact absurd (List.append_eq_nil_iff.mp hx.symm).1 hne

end Bulletin.Marker
