import Bulletin.Proofs.Pairing

/-! Emphasis undone. Every tag of a marker replaced by its token gives back the text that a pass
went over, if no tag of the marker was in that text before. The italic tags are replaced first,
since they were written last. Author text without a `<` holds no tag, and bold emphasis writes no
italic one, so emphasis loses nothing of such a text. -/

namespace Bulletin

namespace Text

/-- The text with every occurrence of `old` replaced by `new`, from left to right without
overlap. -/
def replaceAll (t old new : Text) : Text := new.intercalate (cutAll t old)

example : replaceAll "aaab<b>aa" "aa" "-" = "-ab<b>-".toList := by decide

theorem replaceAll_eq_self {t old : Text} (new : Text) (h : ¬ old <:+: t) :
    replaceAll t old new = t := by
  simp [replaceAll, cutAll_eq_singleton h]

theorem replaceAll_append {old : Text} (hne : old ≠ []) (new r : Text) :
    replaceAll (old ++ r) old new = new ++ replaceAll r old new := by
  rw [replaceAll, cutAll_append hne, List.intercalate_cons_of_ne_nil (cutAll_ne_nil hne r)]
  rfl

theorem replaceAll_cons {old r : Text} {c : Char} (new : Text) (h : ¬ old <+: c :: r) :
    replaceAll (c :: r) old new = c :: replaceAll r old new := by
  have hne : old ≠ [] := by
    rintro rfl
    exact h List.nil_prefix
  obtain ⟨p, ps, hr⟩ := List.exists_cons_of_ne_nil (cutAll_ne_nil hne r)
  rw [replaceAll, replaceAll, cutAll_cons h, hr, List.modifyHead_cons]
  cases ps <;> simp [List.intercalate_cons_cons]

theorem replaceAll_append_of_notMem {x : Char} {old a : Text} (ha : x ∉ a) (new m : Text) :
    replaceAll (a ++ m) (x :: old) new = a ++ replaceAll m (x :: old) new := by
  induction a with
  | nil => rfl
  | cons c a ih =>
    simp only [List.mem_cons, not_or] at ha
    have hp : ¬ x :: old <+: c :: (a ++ m) := fun hp => ha.1 (List.cons_prefix_cons.mp hp).1
    rw [List.cons_append, replaceAll_cons new hp, ih ha.2]
    rfl

theorem infix_of_infix_append_of_notMem {x : Char} {token a m : Text} (ha : x ∉ a)
    (h : x :: token <:+: a ++ m) : x :: token <:+: m := by
  induction a with
  | nil => exact h
  | cons c a ih =>
    simp only [List.mem_cons, not_or] at ha
    rcases List.infix_cons_iff.mp h with hp | hi
    · exact absurd (List.cons_prefix_cons.mp hp).1 ha.1
    · exact ih ha.2 hi

theorem replaceAll_append_cons {x : Char} {old a : Text} (hx : x ∉ old) (ha : ¬ x :: old <:+: a)
    (new m : Text) :
    replaceAll (a ++ x :: m) (x :: old) new = a ++ replaceAll (x :: m) (x :: old) new := by
  induction a with
  | nil => rfl
  | cons c a ih =>
    rw [List.infix_cons_iff, not_or] at ha
    have hp : ¬ x :: old <+: c :: (a ++ x :: m) := by
      intro hp
      obtain ⟨rfl, htail⟩ := List.cons_prefix_cons.mp hp
      exact ha.1 (List.cons_prefix_cons.mpr ⟨rfl, prefix_of_prefix_append_cons hx htail⟩)
    rw [List.cons_append, replaceAll_cons new hp, ih ha.2]
    rfl

end Text

namespace Marker
open Text

structure IsTag (tag : Text) : Prop where
  head : tag.head? = some '<'
  tail : '<' ∉ tag.tail

theorem IsTag.exists_eq {tag : Text} (h : IsTag tag) : ∃ name, tag = '<' :: name ∧ '<' ∉ name := by
  cases tag with
  | nil => simpa using h.head
  | cons c name =>
    obtain rfl : c = '<' := by simpa using h.head
    exact ⟨name, rfl, h.tail⟩

def Apart (tag other : Text) : Prop := ¬ tag <+: other ∧ ¬ other <+: tag

instance (tag other : Text) : Decidable (Apart tag other) :=
  inferInstanceAs (Decidable (¬ tag <+: other ∧ ¬ other <+: tag))

theorem Apart.not_prefix_append {tag other m : Text} (h : Apart tag other) :
    ¬ tag <+: other ++ m := fun hp =>
  (List.prefix_or_prefix_of_prefix hp (List.prefix_append other m)).elim h.1 h.2

theorem IsTag.replaceAll_self {tag a : Text} (h : IsTag tag) (ha : ¬ tag <:+: a) (new m : Text) :
    replaceAll (a ++ (tag ++ m)) tag new = a ++ (new ++ replaceAll m tag new) := by
  obtain ⟨name, rfl, hname⟩ := h.exists_eq
  rw [← replaceAll_append (by simp) new m]
  exact replaceAll_append_cons hname ha new _

theorem IsTag.replaceAll_other {tag other a : Text} (h : IsTag tag) (ho : IsTag other)
    (hapart : Apart tag other) (ha : ¬ tag <:+: a) (new m : Text) :
    replaceAll (a ++ (other ++ m)) tag new = a ++ (other ++ replaceAll m tag new) := by
  obtain ⟨name, rfl, hname⟩ := h.exists_eq
  obtain ⟨rest, rfl, hrest⟩ := ho.exists_eq
  have hp : ¬ '<' :: name <+: '<' :: (rest ++ m) := hapart.not_prefix_append
  rw [List.cons_append, replaceAll_append_cons hname ha, replaceAll_cons new hp,
    replaceAll_append_of_notMem hrest]
  rfl

structure Legible (mk : Marker) : Prop where
  token_ne_nil : mk.token ≠ []
  opening : IsTag mk.opening
  closing : IsTag mk.closing
  apart : Apart mk.opening mk.closing

theorem legible_bold : Legible bold :=
  ⟨by decide, ⟨rfl, by decide⟩, ⟨rfl, by decide⟩, by decide⟩
theorem legible_italic : Legible italic :=
  ⟨by decide, ⟨rfl, by decide⟩, ⟨rfl, by decide⟩, by decide⟩

variable {mk : Marker}

/-- The text with the tags of a marker written as markers again. -/
def restore (mk : Marker) (t : Text) : Text :=
  (t.replaceAll mk.opening mk.token).replaceAll mk.closing mk.token

/-- Pairs of tags are written as the markers in whose place they stand, also behind a text `a` that
holds no tag of the marker. -/
theorem Paired.restore_append (hmk : Legible mk) {t m : Text} (h : mk.Paired t m) (a : Text)
    (ho : ¬ mk.opening <:+: a ++ t) (hc : ¬ mk.closing <:+: a ++ t) :
    mk.restore (a ++ m) = a ++ t := by
  induction h generalizing a with
  | nil =>
    rw [List.append_nil] at ho hc ⊢
    rw [Marker.restore, replaceAll_eq_self _ ho, replaceAll_eq_self _ hc]
  | char c _ ih => simpa using ih (a ++ [c]) (by simpa using ho) (by simpa using hc)
  | @span inner t m _ ih =>
    have hpart : ∀ {tag x y z : Text}, ¬ tag <:+: a ++ (mk.token ++ (inner ++ (mk.token ++ t))) →
        a ++ (mk.token ++ (inner ++ (mk.token ++ t))) = x ++ (y ++ z) → ¬ tag <:+: y :=
      fun hnot heq hi => hnot (hi.trans ⟨_, _, by rw [heq, List.append_assoc]⟩)
    have hbefore : ¬ mk.opening <:+: a := @hpart _ [] _ _ ho rfl
    have hinner : ¬ mk.opening <:+: inner := @hpart _ (a ++ mk.token) _ (mk.token ++ t) ho (by simp)
    have hspan : ¬ mk.closing <:+: a ++ (mk.token ++ inner) :=
      @hpart _ [] _ (mk.token ++ t) hc (by simp)
    have htail : ∀ {tag : Text}, ¬ tag <:+: a ++ (mk.token ++ (inner ++ (mk.token ++ t))) →
        ¬ tag <:+: t := fun hnot =>
      @hpart _ (a ++ (mk.token ++ (inner ++ mk.token))) t [] hnot (by simp)
    have hrest : mk.restore m = t := ih [] (htail ho) (htail hc)
    calc mk.restore (a ++ (mk.opening ++ (inner ++ (mk.closing ++ m))))
        = (a ++ (mk.token ++ (inner ++ (mk.closing ++ m.replaceAll mk.opening mk.token)))).replaceAll
            mk.closing mk.token := by
          rw [Marker.restore, hmk.opening.replaceAll_self hbefore,
            hmk.opening.replaceAll_other hmk.closing hmk.apart hinner]
      _ = a ++ (mk.token ++ inner) ++ (mk.token ++ mk.restore m) := by
          rw [Marker.restore, ← hmk.closing.replaceAll_self hspan]
          simp
      _ = a ++ (mk.token ++ (inner ++ (mk.token ++ t))) := by
          rw [hrest]
          simp

theorem restore_apply (hmk : Legible mk) {t : Text} (ho : ¬ mk.opening <:+: t)
    (hc : ¬ mk.closing <:+: t) : mk.restore (mk.apply t) = t :=
  (paired_apply hmk.token_ne_nil t).restore_append hmk [] ho hc

theorem Tagged.not_infix_of_plain (hmk : Legible mk) {tag t m : Text} (htag : IsTag tag)
    (ho : Apart tag mk.opening) (hc : Apart tag mk.closing) (h : mk.Tagged t m)
    (ht : Html.Plain t) : ¬ tag <:+: m := by
  obtain ⟨name, rfl, hname⟩ := htag.exists_eq
  induction h with
  | nil => simp
  | @char c t m _ ih =>
    obtain ⟨hc, ht⟩ := Html.plain_cons_iff.mp ht
    rw [List.infix_cons_iff, not_or]
    exact ⟨fun hp => hc (List.cons_prefix_cons.mp hp).1.symm, ih ht⟩
  | @tag own t m hown _ ih =>
    have ht' : Html.Plain t := (Html.plain_append_iff.mp ht).2
    have hboth : IsTag own ∧ Apart ('<' :: name) own := by
      rcases hown with rfl | rfl
      · exact ⟨hmk.opening, ho⟩
      · exact ⟨hmk.closing, hc⟩
    obtain ⟨rest, hrest, hname⟩ := hboth.1.exists_eq
    intro hi
    rw [hrest, List.cons_append, List.infix_cons_iff, ← List.cons_append, ← hrest] at hi
    rcases hi with hp | hi
    · exact hboth.2.not_prefix_append hp
    · exact ih ht' (infix_of_infix_append_of_notMem hname hi)

end Marker

namespace Emphasis
open Marker

def restore (t : Text) : Text := Marker.bold.restore (italic.restore t)

theorem restore_bold {t : Text} (h : Html.Plain t) : Marker.bold.restore (bold t) = t := by
  have hnot : ∀ {tag : Text}, '<' ∈ tag → ¬ tag <:+: t := fun hm hi => h (hi.subset hm)
  exact restore_apply legible_bold (hnot (by decide)) (hnot (by decide))

theorem restore_inline {t : Text} (h : Html.Plain t) : restore (inline t) = t := by
  have hitalic : ∀ {tag : Text}, IsTag tag → Apart tag Marker.bold.opening →
      Apart tag Marker.bold.closing → ¬ tag <:+: bold t := fun htag ho hc =>
    (tagged_apply legible_bold.token_ne_nil t).not_infix_of_plain legible_bold htag ho hc h
  have hbold : italic.restore (inline t) = bold t :=
    restore_apply legible_italic
      (hitalic legible_italic.opening (by decide) (by decide))
      (hitalic legible_italic.closing (by decide) (by decide))
  rw [restore, hbold, restore_bold h]

/-- Emphasis of author text is undone by writing `**` for its bold tags and `*` for its italic ones,
so two texts with the same emphasis are the same text. -/
theorem emphasis_restored {t : Text} (h : Html.Plain t) :
    restore (inline t) = t ∧ Marker.bold.restore (bold t) = t ∧
      ∀ u, Html.Plain u → (inline u = inline t → u = t) ∧ (bold u = bold t → u = t) := by
  refine ⟨restore_inline h, restore_bold h, fun u hu => ⟨fun heq => ?_, fun heq => ?_⟩⟩
  · rw [← restore_inline hu, heq, restore_inline h]
  · rw [← restore_bold hu, heq, restore_bold h]

/-- The two emphases overlap, and a bold marker has no partner. -/
theorem emphasis_restored_overlap :
    let t : Text := "***a** b* c ** d"
    let m : Text := "<b><i>a</b> b</i> c <i></i> d"
    Html.Plain t ∧ inline t = m ∧ restore m = t ∧ ∀ u, Html.Plain u → inline u = m → u = t := by
  intro t m
  have ht : Html.Plain t := by decide
  have hm : inline t = m := by decide
  obtain ⟨hrestore, -, hunique⟩ := emphasis_restored ht
  rw [hm] at hrestore
  exact ⟨ht, hm, hrestore, fun u hu heq => (hunique u hu).1 (heq.trans hm.symm)⟩

end Emphasis
end Bulletin
