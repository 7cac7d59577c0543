import Bulletin.Proofs.Pairing

/-! What emphasis leaves of the markers. A pass leaves at most one occurrence of its token on a
line, so a second pass finds no pair. Of the asterisks of a line the two passes leave the one that
has no partner, if their number is odd. A bold marker without a partner is therefore not kept: its
two asterisks are two markers of the italic pass, with nothing between them. -/

namespace Bulletin

namespace Text

theorem eq_of_lines_eq {t u : Text} (h : lines t = lines u) : t = u := by
  have hjoin : ∀ t : Text, ['\n'].intercalate (lines t) = t := fun t => by
    rw [lines, splitOn_eq, List.intercalate_splitOn]
  rw [← hjoin t, h, hjoin u]

/-- A function that goes over a text line by line changes nothing twice if it changes no line
twice. -/
theorem idempotent_of_lines {f : Text → Text}
    (hf : ∀ a b, '\n' ∉ a → f (a ++ '\n' :: b) = f a ++ '\n' :: f b)
    (hline : ∀ a, '\n' ∉ a → '\n' ∉ f a) (h : ∀ a, '\n' ∉ a → f (f a) = f a) (t : Text) :
    f (f t) = f t := by
  refine eq_of_lines_eq ?_
  rw [lines_eq_map hf hline, lines_eq_map hf hline, List.map_map]
  exact List.map_congr_left fun l hl => h l (notMem_of_mem_splitOn hl)

end Text

theorem Html.Inline.apart {mk : Marker} (hmk : Inline mk) {e : Text × Text} (he : e ∈ inlineTags) :
    e.2 ≠ [] ∧ ∀ c ∈ e.2, c ∉ mk.token := by
  refine ⟨fun hnil => ?_, fun c hc hm => hmk.token_apart c hm e he hc⟩
  simpa [hnil] using inlineTags_head e he

namespace Marker
open Text

variable {mk : Marker}

theorem Single.append_cons {a m : Text} {x : Char} (hx : x ∉ mk.token) (ha : ¬ mk.token <:+: a)
    (h : mk.Single m) : mk.Single (a ++ x :: m) := by
  have hstart : ∀ {b rest : Text}, b <:+ a → mk.token ++ rest ≠ b ++ x :: m := by
    intro b rest hb heq
    have hp : mk.token <+: b ++ x :: m := heq ▸ List.prefix_append _ _
    exact ha ((prefix_of_prefix_append_cons hx hp).isInfix.trans hb.isInfix)
  intro u inner after heq
  rcases List.append_eq_append_iff.mp heq with ⟨b, hu, hm⟩ | ⟨b, hb, hm⟩
  · cases b with
    | nil => exact hstart List.nil_suffix (by simpa using hm.symm)
    | cons y b =>
      obtain ⟨-, hm⟩ := List.cons.inj hm
      exact h b inner after hm
  · exact hstart ⟨u, hb.symm⟩ hm

theorem Single.append_apart {tag m : Text} (hne : mk.token ≠ []) (htag : ∀ c ∈ tag, c ∉ mk.token)
    (h : mk.Single m) : mk.Single (tag ++ m) := by
  induction tag with
  | nil => exact h
  | cons c tag ih =>
    have hrest := ih fun d hd => htag d (List.mem_cons_of_mem c hd)
    exact @Single.append_cons mk [] _ c (htag c List.mem_cons_self) (by simp [hne]) hrest

theorem Single.append_tag {a tag m : Text} (hne : mk.token ≠ [])
    (htag : tag ≠ [] ∧ ∀ c ∈ tag, c ∉ mk.token) (ha : ¬ mk.token <:+: a) (h : mk.Single m) :
    mk.Single (a ++ (tag ++ m)) := by
  obtain ⟨c, tag, rfl⟩ := List.exists_cons_of_ne_nil htag.1
  have hrest := h.append_apart hne fun d hd => htag.2 d (List.mem_cons_of_mem c hd)
  exact hrest.append_cons (htag.2 c List.mem_cons_self) ha

theorem single_apply (hmk : mk.OneLine) (hin : Html.Inline mk) {l : Text} (hl : '\n' ∉ l) :
    mk.Single (mk.apply l) := by
  have hne := hmk.token_ne_nil
  refine pairing_induction hmk (P := fun l => mk.Single (mk.apply l)) ?single ?pair hl
  case single =>
    intro l _ h
    rwa [apply_of_single h]
  case pair =>
    intro l a r b s hl h hr ih
    have hclosed : mk.Single (b ++ (mk.closing ++ mk.apply s)) :=
      ih.append_tag hne (hin.apart hin.closing_mem) (not_infix_of_cut? hne hr)
    rw [apply_of_cut? hmk hl h hr]
    exact hclosed.append_tag hne (hin.apart hin.opening_mem) (not_infix_of_cut? hne h)

theorem apply_apply (hmk : mk.OneLine) (hin : Html.Inline mk) {l : Text} (hl : '\n' ∉ l) :
    mk.apply (mk.apply l) = mk.apply l :=
  apply_of_single (single_apply hmk hin hl)

/-- A pass takes the markers away in pairs. -/
theorem count_apply_mod_two (hmk : mk.OneLine) {c : Char} (ho : c ∉ mk.opening)
    (hc : c ∉ mk.closing) {l : Text} (hl : '\n' ∉ l) :
    (mk.apply l).count c % 2 = l.count c % 2 := by
  refine pairing_induction hmk (P := fun l => (mk.apply l).count c % 2 = l.count c % 2)
    ?single ?pair hl
  case single =>
    intro l _ h
    rw [apply_of_single h]
  case pair =>
    intro l a r b s hl h hr ih
    have hafter : (mk.apply l).count c = a.count c + b.count c + (mk.apply s).count c := by
      rw [apply_of_cut? hmk hl h hr]
      simp only [List.count_append, List.count_eq_zero_of_not_mem ho,
        List.count_eq_zero_of_not_mem hc]
      omega
    have hbefore : l.count c = a.count c + b.count c + s.count c + 2 * mk.token.count c := by
      rw [eq_append_of_cut? h, eq_append_of_cut? hr]
      simp only [List.count_append]
      omega
    omega

theorem single_of_count {c : Char} {t : Text} (hc : c ∈ mk.token) (h : t.count c ≤ 1) :
    mk.Single t := by
  rintro x inner after rfl
  have hpos : 0 < mk.token.count c := List.count_pos_iff.mpr hc
  simp only [List.count_append] at h
  omega

theorem count_of_single_italic {t : Text} (h : italic.Single t) : t.count '*' ≤ 1 := by
  by_cases hm : '*' ∈ t
  · obtain ⟨a, r, rfl, ha⟩ := List.eq_append_cons_of_mem hm
    have hr : '*' ∉ r := by
      intro hr
      obtain ⟨b, s, rfl, -⟩ := List.eq_append_cons_of_mem hr
      exact h a b s rfl
    simp [List.count_eq_zero_of_not_mem ha, List.count_eq_zero_of_not_mem hr]
  · simp [List.count_eq_zero_of_not_mem hm]

theorem apply_spans_append {x : Char} {token : Text} (ht : mk.token = x :: token)
    {ps : List (Text × Text)} (h : ∀ p ∈ ps, x ∉ p.1 ∧ x ∉ p.2 ∧ '\n' ∉ p.2) (r : Text) :
    mk.apply ((ps.flatMap fun p => p.1 ++ mk.token ++ p.2 ++ mk.token) ++ r) =
      (ps.flatMap fun p => p.1 ++ mk.opening ++ p.2 ++ mk.closing) ++ mk.apply r := by
  induction ps with
  | nil => rfl
  | cons p ps ih =>
    obtain ⟨hbefore, hinner, hline⟩ := h p List.mem_cons_self
    have hrest := ih fun q hq => h q (List.mem_cons_of_mem p hq)
    simp only [List.flatMap_cons, List.append_assoc] at hrest ⊢
    rw [apply_append_of_notMem ht hbefore, apply_span_append ht hinner hline, hrest]

end Marker

namespace Emphasis
open Text Marker

/-- Of the asterisks of a line one is left, if their number is odd. -/
theorem count_inline_line {l : Text} (hl : '\n' ∉ l) :
    (inline l).count '*' = l.count '*' % 2 := by
  have hitalic : (inline l).count '*' % 2 = (bold l).count '*' % 2 :=
    count_apply_mod_two oneLine_italic (by decide) (by decide) (line_bold l hl)
  have hbold : (bold l).count '*' % 2 = l.count '*' % 2 :=
    count_apply_mod_two oneLine_bold (by decide) (by decide) hl
  have hone : (inline l).count '*' ≤ 1 :=
    count_of_single_italic (single_apply oneLine_italic Html.inline_italic (line_bold l hl))
  omega

theorem inline_inline_line {l : Text} (hl : '\n' ∉ l) : inline (inline l) = inline l := by
  have hone : (inline l).count '*' ≤ 1 := by
    rw [count_inline_line hl]
    omega
  have hbold : bold (inline l) = inline l := apply_of_single (single_of_count (by decide) hone)
  calc inline (inline l) = italic.apply (inline l) := congrArg italic.apply hbold
    _ = inline l := apply_of_single (single_of_count (by decide) hone)

/-- Text with emphasis is kept by another pass, and on every line one asterisk is left if their
number was odd, and none otherwise. -/
theorem inline_idempotent (t : Text) :
    inline (inline t) = inline t ∧ bold (bold t) = bold t ∧
      (inline t).lines.map (fun l => l.count '*') = t.lines.map (fun l => l.count '*' % 2) := by
  refine ⟨?_, ?_, ?_⟩
  · exact idempotent_of_lines inline_append_newline line_inline
      (fun _ hl => inline_inline_line hl) t
  · exact idempotent_of_lines bold_append_newline line_bold
      (fun _ hl => apply_apply oneLine_bold Html.inline_bold hl) t
  · rw [lines_eq_map inline_append_newline line_inline, List.map_map]
    exact List.map_congr_left fun l hl => count_inline_line (notMem_of_mem_splitOn hl)

theorem bold_of_unmatched {a b : Text} (ha : '*' ∉ a) (hb : '*' ∉ b) :
    bold (a ++ ("**".toList ++ b)) = a ++ ("**".toList ++ b) := by
  have hcut : cut? (a ++ ("**".toList ++ b)) Marker.bold.token = some (a, b) := cut?_of_notMem ha
  have hnot : ¬ Marker.bold.token <:+: b := fun hi => hb (hi.subset (by decide))
  exact apply_of_single (single_of_cut? hcut hnot)

/-- Bold markers with a partner become tags, and the two asterisks of one without a partner become
an empty italic span. -/
theorem inline_unmatched {ps : List (Text × Text)} {a b : Text}
    (hps : ∀ p ∈ ps, '*' ∉ p.1 ∧ '*' ∉ p.2 ∧ '\n' ∉ p.2) (ha : '*' ∉ a) (hb : '*' ∉ b) :
    inline ((ps.flatMap fun p => p.1 ++ "**".toList ++ p.2 ++ "**".toList) ++
        (a ++ ("**".toList ++ b))) =
      (ps.flatMap fun p => p.1 ++ "<b>".toList ++ p.2 ++ "</b>".toList) ++
        (a ++ ("<i></i>".toList ++ b)) := by
  have hspans : '*' ∉ ps.flatMap fun p => p.1 ++ "<b>".toList ++ p.2 ++ "</b>".toList := by
    intro hm
    obtain ⟨p, hp, hm⟩ := List.mem_flatMap.mp hm
    simp [hps p hp] at hm
  have hkept : italic.apply b = b := apply_of_unmarked (by decide) (by simpa [italic] using hb)
  have hempty : italic.apply ("**".toList ++ b) = "<i></i>".toList ++ b := by
    have hspan := @apply_span_append italic '*' [] [] rfl (by simp) (by simp) b
    rw [hkept] at hspan
    exact hspan
  have hbold : bold ((ps.flatMap fun p => p.1 ++ "**".toList ++ p.2 ++ "**".toList) ++
      (a ++ ("**".toList ++ b))) =
        (ps.flatMap fun p => p.1 ++ "<b>".toList ++ p.2 ++ "</b>".toList) ++
          bold (a ++ ("**".toList ++ b)) :=
    @apply_spans_append Marker.bold '*' ['*'] rfl ps hps (a ++ ("**".toList ++ b))
  rw [inline, hbold, bold_of_unmatched ha hb, apply_append_of_notMem rfl hspans,
    apply_append_of_notMem rfl ha, hempty]

/-- A marker without a partner is lost: `a ** b` has no asterisks left. -/
theorem inline_unmatched_lost :
    inline "a ** b" = "a <i></i> b".toList ∧
      ¬ ∀ (ps : List (Text × Text)) (a b : Text),
        (∀ p ∈ ps, ('*' ∉ p.1 ∧ '\n' ∉ p.1) ∧ '*' ∉ p.2 ∧ '\n' ∉ p.2) →
        ('*' ∉ a ∧ '\n' ∉ a) → ('*' ∉ b ∧ '\n' ∉ b) →
        (∀ p ∈ ps, p.2 ≠ []) → (∀ p ∈ ps.tail, p.1 ≠ []) → (ps ≠ [] → a ≠ []) →
        "**".toList <:+: inline ((ps.flatMap fun p => p.1 ++ "**".toList ++ p.2 ++ "**".toList) ++
          (a ++ ("**".toList ++ b))) := by
  have hlost : inline "a ** b" = "a <i></i> b".toList := by decide
  refine ⟨hlost, fun h => ?_⟩
  have hkept := h [] "a " " b" (by simp) (by decide) (by decide) (by simp) (by simp) (by simp)
  have hline : ([] : List (Text × Text)).flatMap (fun p => p.1 ++ "**".toList ++ p.2 ++ "**".toList) ++
      ("a ".toList ++ ("**".toList ++ " b".toList)) = "a ** b".toList := by decide
  rw [hline, hlost] at hkept
  have hmem : '*' ∈ "a <i></i> b".toList := hkept.subset (by decide)
  exact absurd hmem (by decide)

/-- Two bold spans, and after them a marker without a partner. -/
theorem inline_unmatched_twice :
    let ps : List (Text × Text) := [("one ", "two"), (" and\n", "three")]
    (∀ p ∈ ps, '*' ∉ p.1 ∧ '*' ∉ p.2 ∧ '\n' ∉ p.2) ∧
      inline "one **two** and\n**three** of 2 ** 3" =
        "one <b>two</b> and\n<b>three</b> of 2 <i></i> 3".toList := by
  intro ps
  have hps : ∀ p ∈ ps, '*' ∉ p.1 ∧ '*' ∉ p.2 ∧ '\n' ∉ p.2 := by decide
  have hline : (ps.flatMap fun p => p.1 ++ "**".toList ++ p.2 ++ "**".toList) ++
      (" of 2 ".toList ++ ("**".toList ++ " 3".toList)) =
        "one **two** and\n**three** of 2 ** 3".toList := by decide
  have hemphasis := @inline_unmatched ps " of 2 " " 3" hps (by decide) (by decide)
  rw [hline] at hemphasis
  rw [hemphasis]
  exact ⟨hps, by decide⟩

end Emphasis
end Bulletin
