import Bulletin.Proofs.Emphasis
import Bulletin.Proofs.Html.Marked
import Bulletin.Proofs.Text.Split

/-! Emphasis as pairing. A line is cut at the occurrences of a marker, found from left to right and
without overlap; every second of them closes what the one before it opened, and an odd last one is
kept. A pass of emphasis does this on every line by itself: the shortest span after a marker ends at
the next occurrence, and where a marker has no partner on its line, none of its characters begins
another span. -/

namespace Bulletin

namespace Text

/-- The pieces of a text between the occurrences of a token, each found after the end of the one
before. The count says how many characters belong to an occurrence that is already found. -/
def cutAllFrom (token : Text) : Nat → Text → List Text
  | _, [] => [[]]
  | found + 1, _ :: r => cutAllFrom token found r
  | 0, c :: r =>
    if token.isPrefixOf (c :: r) then [] :: cutAllFrom token (token.length - 1) r
    else (cutAllFrom token 0 r).modifyHead (c :: ·)

/-- The pieces of a text between the leftmost occurrences of a token that do not overlap. -/
def cutAll (t token : Text) : List Text := cutAllFrom token 0 t

theorem cutAllFrom_skip (token : Text) (n : Nat) (t : Text) :
    cutAllFrom token n t = cutAll (t.drop n) token := by
  induction t generalizing n with
  | nil => cases n <;> simp [cutAll, cutAllFrom]
  | cons c r ih => cases n with
    | zero => rfl
    | succ n => simp [cutAllFrom, ih]

theorem cutAll_append {token : Text} (hne : token ≠ []) (r : Text) :
    cutAll (token ++ r) token = [] :: cutAll r token := by
  obtain ⟨c, s, rfl⟩ := List.exists_cons_of_ne_nil hne
  have hp : (c :: s).isPrefixOf (c :: (s ++ r)) = true :=
    List.isPrefixOf_iff_prefix.mpr (List.prefix_append (c :: s) r)
  rw [List.cons_append, cutAll, cutAllFrom, if_pos hp, cutAllFrom_skip]
  simp

theorem cutAll_cons {token r : Text} {c : Char} (h : ¬ token <+: c :: r) :
    cutAll (c :: r) token = (cutAll r token).modifyHead (c :: ·) := by
  rw [cutAll, cutAllFrom, if_neg (by rwa [List.isPrefixOf_iff_prefix]), cutAll]

theorem cutAll_of_cut? {token t a b : Text} (hne : token ≠ []) (h : cut? t token = some (a, b)) :
    cutAll t token = a :: cutAll b token := by
  induction t generalizing a with
  | nil => simp [cut?, hne] at h
  | cons c r ih =>
    by_cases hp : token <+: c :: r
    · obtain ⟨s, hs⟩ := hp
      rw [cut?_cons_found ⟨s, hs⟩, ← hs, List.drop_left] at h
      obtain ⟨rfl, rfl⟩ := Prod.mk.inj (Option.some.inj h)
      rw [← hs, cutAll_append hne]
    · rw [cut?_cons_skip hp] at h
      obtain ⟨⟨p, q⟩, hcut, heq⟩ := Option.map_eq_some_iff.mp h
      obtain ⟨rfl, rfl⟩ := Prod.mk.inj heq
      rw [cutAll_cons hp, ih hcut]
      rfl

theorem cutAll_eq_singleton {token t : Text} (h : ¬ token <:+: t) : cutAll t token = [t] := by
  induction t with
  | nil => rfl
  | cons c r ih =>
    rw [List.infix_cons_iff, not_or] at h
    rw [cutAll_cons h.1, ih h.2]
    rfl

theorem cutAll_ne_nil {token : Text} (hne : token ≠ []) (t : Text) : cutAll t token ≠ [] := by
  cases h : cut? t token with
  | none => simp [cutAll_eq_singleton (cut?_eq_none_iff.mp h)]
  | some p => simp [cutAll_of_cut? hne h]

/-- A function that goes over a text line by line, and puts `between` in the place of each
newline. -/
theorem eq_intercalate_lines {f : Text → Text} (between : Text)
    (hf : ∀ a b, '\n' ∉ a → f (a ++ '\n' :: b) = f a ++ (between ++ f b)) (t : Text) :
    f t = between.intercalate ((lines t).map f) := by
  induction t using split_induction '\n' with
  | piece a ha => simp [lines_of_notMem ha]
  | cut a b ha ih =>
    obtain ⟨x, xs, hx⟩ := List.exists_cons_of_ne_nil (splitOn_ne_nil '\n' b)
    have hlines : lines (a ++ '\n' :: b) = a :: x :: xs := by
      rw [lines_append_newline, lines_of_notMem ha, lines, hx]
      rfl
    rw [hf a b ha, ih, hlines, lines, hx]
    simp [List.intercalate_cons_cons]

theorem lines_eq_map {f : Text → Text}
    (hf : ∀ a b, '\n' ∉ a → f (a ++ '\n' :: b) = f a ++ '\n' :: f b)
    (hline : ∀ a, '\n' ∉ a → '\n' ∉ f a) (t : Text) : lines (f t) = (lines t).map f := by
  have hpieces : ∀ l ∈ (lines t).map f, '\n' ∉ l := by
    intro l hl
    obtain ⟨a, ha, rfl⟩ := List.mem_map.mp hl
    exact hline a (notMem_of_mem_splitOn ha)
  have hne : (lines t).map f ≠ [] := fun h => splitOn_ne_nil '\n' t (List.map_eq_nil_iff.mp h)
  calc lines (f t) = lines (['\n'].intercalate ((lines t).map f)) := by
        rw [← eq_intercalate_lines ['\n'] hf t]
    _ = (lines t).map f := lines_intercalate hne hpieces

end Text

namespace Marker
open Text

/-- Pieces put together again with every second marker between them closing what the one before it
opened. An odd last marker is kept. -/
def weave (mk : Marker) : List Text → Text
  | [] => []
  | [a] => a
  | [a, b] => a ++ mk.token ++ b
  | a :: b :: c :: ps => a ++ mk.opening ++ b ++ mk.closing ++ mk.weave (c :: ps)

def pair (mk : Marker) (line : Text) : Text := mk.weave (line.cutAll mk.token)

example : bold.pair "a ***b** c*** **d**e**f" = "a <b>*b</b> c<b>* </b>d<b>e</b>f".toList := by
  decide

structure OneLine (mk : Marker) : Prop where
  token_ne_nil : mk.token ≠ []
  token_line : '\n' ∉ mk.token
  opening_line : '\n' ∉ mk.opening
  closing_line : '\n' ∉ mk.closing

theorem oneLine_bold : OneLine bold := ⟨by decide, by decide, by decide, by decide⟩
theorem oneLine_italic : OneLine italic := ⟨by decide, by decide, by decide, by decide⟩

variable {mk : Marker}

/-- No two occurrences of the token without overlap. -/
def Single (mk : Marker) (t : Text) : Prop :=
  ∀ x inner after, t ≠ x ++ (mk.token ++ (inner ++ (mk.token ++ after)))

theorem Single.tail {c : Char} {t : Text} (h : mk.Single (c :: t)) : mk.Single t :=
  fun x inner after ht => h (c :: x) inner after (by rw [ht]; rfl)

theorem apply_of_single {t : Text} (h : mk.Single t) : mk.apply t = t := by
  induction t with
  | nil => rfl
  | cons c r ih =>
    cases hs : mk.span? (c :: r) with
    | none => rw [apply_of_no_span hs, ih h.tail]
    | some inner =>
      obtain ⟨after, hr⟩ := exists_of_span? hs
      exact absurd hr (h [] inner after)

theorem single_of_tokenless {t : Text} (h : ¬ mk.token <:+: t) : mk.Single t := by
  rintro x inner after rfl
  exact h ⟨x, inner ++ (mk.token ++ after), by simp⟩

theorem single_of_cut? {t a b : Text} (h : cut? t mk.token = some (a, b))
    (hb : ¬ mk.token <:+: b) : mk.Single t := by
  rintro x inner after rfl
  have hs : inner ++ (mk.token ++ after) <:+ b := suffix_of_cut? h
  have hi : mk.token <:+: inner ++ (mk.token ++ after) := ⟨inner, after, by simp⟩
  exact hb (hi.trans hs.isInfix)

theorem span?_eq_none {t : Text} (h : ¬ mk.token <+: t) : mk.span? t = none := by
  rw [span?, if_neg (by rwa [List.isPrefixOf_iff_prefix])]

theorem span?_token_append (t : Text) :
    mk.span? (mk.token ++ t) = (cutLine? t mk.token).map (·.1) := by
  rw [span?, if_pos (List.isPrefixOf_iff_prefix.mpr (List.prefix_append _ t)), List.drop_left]

theorem span?_line_append (hmk : mk.OneLine) {l r : Text} (hl : '\n' ∉ l)
    (hr : ∀ c ∈ r.head?, c = '\n') : mk.span? (l ++ r) = mk.span? l := by
  have hpre := prefix_line_append_iff (l := l) hmk.token_line hr
  by_cases hp : mk.token <+: l
  · obtain ⟨x, rfl⟩ := hp
    have hx : '\n' ∉ x := fun hm => hl (List.mem_append_right _ hm)
    have hcut := cutLine?_line_append hmk.token_ne_nil hmk.token_line hx hr
    have hone := cutLine?_line_append (r := []) hmk.token_ne_nil hmk.token_line hx (by simp)
    rw [List.append_nil] at hone
    rw [List.append_assoc, span?_token_append, span?_token_append, hcut, hone, Option.map_map,
      Option.map_map]
    rfl
  · rw [span?_eq_none hp, span?_eq_none fun h => hp (hpre.mp h)]

theorem span?_line (hmk : mk.OneLine) {l : Text} (hl : '\n' ∉ l) :
    mk.span? (mk.token ++ l) = (cut? l mk.token).map (·.1) := by
  have hone := cutLine?_line_append (r := []) hmk.token_ne_nil hmk.token_line hl (by simp)
  rw [List.append_nil] at hone
  rw [span?_token_append, hone, Option.map_map]
  rfl

theorem apply_append_of_notMem {x : Char} {token a : Text} (ht : mk.token = x :: token) (ha : x ∉ a)
    (m : Text) : mk.apply (a ++ m) = a ++ mk.apply m := by
  induction a with
  | nil => rfl
  | cons c a ih =>
    simp only [List.mem_cons, not_or] at ha
    have hp : ¬ mk.token <+: c :: (a ++ m) := by
      rw [ht]
      exact fun hp => ha.1 (List.cons_prefix_cons.mp hp).1
    rw [List.cons_append, apply_of_no_span (span?_eq_none hp), ih ha.2]
    rfl

theorem apply_span_append {x : Char} {token inner : Text} (ht : mk.token = x :: token)
    (hx : x ∉ inner) (hn : '\n' ∉ inner) (r : Text) :
    mk.apply (mk.token ++ (inner ++ (mk.token ++ r))) =
      mk.opening ++ (inner ++ (mk.closing ++ mk.apply r)) := by
  have hspan : mk.span? (mk.token ++ (inner ++ (mk.token ++ r))) = some inner := by
    rw [span?_token_append, ht, cutLine?_of_notMem hx hn]
    rfl
  rw [ht, List.cons_append] at hspan ⊢
  exact apply_of_span (by simp [ht]) hspan (by simp [ht])

theorem apply_append_newline (hmk : mk.OneLine) {a : Text} (b : Text) (ha : '\n' ∉ a) :
    mk.apply (a ++ '\n' :: b) = mk.apply a ++ '\n' :: mk.apply b := by
  have hb : ∀ c ∈ ('\n' :: b).head?, c = '\n' := by simp
  induction hn : a.length using Nat.strongRecOn generalizing a with
  | ind n ih =>
    have hspan := span?_line_append hmk ha hb
    cases a with
    | nil => exact apply_of_no_span (hspan.trans (span?_eq_none (by simp [hmk.token_ne_nil])))
    | cons c r =>
      have hr : '\n' ∉ r := fun hm => ha (List.mem_cons_of_mem c hm)
      cases hs : mk.span? (c :: r) with
      | none =>
        have htail := ih r.length (by simp [← hn]) hr rfl
        calc mk.apply (c :: (r ++ '\n' :: b)) = c :: mk.apply (r ++ '\n' :: b) :=
              apply_of_no_span (hspan.trans hs)
          _ = mk.apply (c :: r) ++ '\n' :: mk.apply b := by rw [htail, apply_of_no_span hs]; rfl
      | some inner =>
        obtain ⟨after, hsplit⟩ := exists_of_span? hs
        have hpos : 0 < mk.token.length := List.length_pos_iff.mpr hmk.token_ne_nil
        have hlen := congrArg List.length hsplit
        simp only [List.length_append] at hlen
        have hafter : '\n' ∉ after := fun hm => ha (by simp [hsplit, hm])
        have htail := ih after.length (by omega) hafter rfl
        have hwhole : c :: (r ++ '\n' :: b) =
            mk.token ++ (inner ++ (mk.token ++ (after ++ '\n' :: b))) := by
          rw [← List.cons_append, hsplit]
          simp
        calc mk.apply (c :: (r ++ '\n' :: b))
            = mk.opening ++ (inner ++ (mk.closing ++ mk.apply (after ++ '\n' :: b))) :=
              apply_of_span hmk.token_ne_nil (hspan.trans hs) hwhole
          _ = mk.apply (c :: r) ++ '\n' :: mk.apply b := by
              rw [htail, apply_of_span hmk.token_ne_nil hs hsplit]
              simp

theorem apply_of_cut? (hmk : mk.OneLine) {l a r b s : Text} (hl : '\n' ∉ l)
    (h : cut? l mk.token = some (a, r)) (hr : cut? r mk.token = some (b, s)) :
    mk.apply l = a ++ (mk.opening ++ (b ++ (mk.closing ++ mk.apply s))) := by
  induction l generalizing a with
  | nil => simp [cut?, hmk.token_ne_nil] at h
  | cons c l ih =>
    have hl' : '\n' ∉ l := fun hm => hl (List.mem_cons_of_mem c hm)
    by_cases hp : mk.token <+: c :: l
    · obtain ⟨x, hx⟩ := hp
      rw [cut?_cons_found ⟨x, hx⟩, ← hx, List.drop_left] at h
      obtain ⟨rfl, rfl⟩ := Prod.mk.inj (Option.some.inj h)
      have hline : '\n' ∉ x := fun hm => hl (by rw [← hx]; simp [hm])
      have hspan : mk.span? (c :: l) = some b := by rw [← hx, span?_line hmk hline, hr]; rfl
      have hsplit : c :: l = mk.token ++ (b ++ (mk.token ++ s)) := by
        rw [← hx, eq_append_of_cut? hr, List.append_assoc]
      exact apply_of_span hmk.token_ne_nil hspan hsplit
    · rw [cut?_cons_skip hp] at h
      obtain ⟨⟨p, q⟩, hcut, heq⟩ := Option.map_eq_some_iff.mp h
      obtain ⟨rfl, rfl⟩ := Prod.mk.inj heq
      rw [apply_of_no_span (span?_eq_none hp), ih hl' hcut]
      rfl

theorem weave_cons_cons (a b : Text) {ps : List Text} (h : ps ≠ []) :
    mk.weave (a :: b :: ps) = a ++ (mk.opening ++ (b ++ (mk.closing ++ mk.weave ps))) := by
  obtain ⟨c, ps, rfl⟩ := List.exists_cons_of_ne_nil h
  simp [weave]

/-- Pairing goes through a line as follows: it holds no two occurrences of the token, or its first
two are a pair and what is after them is shorter. -/
theorem pairing_induction (hmk : mk.OneLine) {P : Text → Prop}
    (single : ∀ l, '\n' ∉ l → mk.Single l → P l)
    (pair : ∀ l a r b s, '\n' ∉ l → cut? l mk.token = some (a, r) →
      cut? r mk.token = some (b, s) → P s → P l)
    {l : Text} (hl : '\n' ∉ l) : P l := by
  induction hn : l.length using Nat.strongRecOn generalizing l with
  | ind n ih =>
    cases h : cut? l mk.token with
    | none => exact single l hl (single_of_tokenless (cut?_eq_none_iff.mp h))
    | some p =>
      obtain ⟨a, r⟩ := p
      cases hr : cut? r mk.token with
      | none => exact single l hl (single_of_cut? h (cut?_eq_none_iff.mp hr))
      | some q =>
        obtain ⟨b, s⟩ := q
        have hsplit := eq_append_of_cut? h
        have hsplit' := eq_append_of_cut? hr
        have hs : '\n' ∉ s := fun hm => hl (by simp [hsplit, hsplit', hm])
        have hlen : s.length < n := by
          have hpos : 0 < mk.token.length := List.length_pos_iff.mpr hmk.token_ne_nil
          rw [← hn, hsplit, hsplit']
          simp only [List.length_append]
          omega
        exact pair l a r b s hl h hr (ih s.length hlen hs rfl)

theorem pair_of_single (hne : mk.token ≠ []) {l : Text} (h : mk.Single l) : mk.pair l = l := by
  cases hcut : cut? l mk.token with
  | none => rw [pair, cutAll_eq_singleton (cut?_eq_none_iff.mp hcut), weave]
  | some p =>
    obtain ⟨a, r⟩ := p
    have hsplit := eq_append_of_cut? hcut
    have hr : ¬ mk.token <:+: r := by
      rintro ⟨inner, after, rfl⟩
      exact h a inner after (by simp [hsplit])
    rw [pair, cutAll_of_cut? hne hcut, cutAll_eq_singleton hr, weave, ← hsplit]

theorem apply_eq_pair (hmk : mk.OneLine) {l : Text} (hl : '\n' ∉ l) : mk.apply l = mk.pair l := by
  refine pairing_induction hmk (P := fun l => mk.apply l = mk.pair l) ?single ?pair hl
  case single =>
    intro l _ hsingle
    rw [apply_of_single hsingle, pair_of_single hmk.token_ne_nil hsingle]
  case pair =>
    intro l a r b s hl h hr ih
    rw [apply_of_cut? hmk hl h hr, ih, pair, pair, cutAll_of_cut? hmk.token_ne_nil h,
      cutAll_of_cut? hmk.token_ne_nil hr,
      weave_cons_cons a b (cutAll_ne_nil hmk.token_ne_nil s)]

theorem line_apply (hmk : mk.OneLine) {l : Text} (hl : '\n' ∉ l) : '\n' ∉ mk.apply l :=
  notMem_apply hmk.token_ne_nil hmk.opening_line hmk.closing_line hl

end Marker

namespace Emphasis
open Text Marker

theorem bold_append_newline (a b : Text) (ha : '\n' ∉ a) :
    bold (a ++ '\n' :: b) = bold a ++ '\n' :: bold b :=
  apply_append_newline oneLine_bold b ha

theorem line_bold (l : Text) (hl : '\n' ∉ l) : '\n' ∉ bold l := line_apply oneLine_bold hl

theorem inline_append_newline (a b : Text) (ha : '\n' ∉ a) :
    inline (a ++ '\n' :: b) = inline a ++ '\n' :: inline b := by
  simp only [inline, bold_append_newline a b ha]
  exact apply_append_newline oneLine_italic (bold b) (line_bold a ha)

theorem line_inline (l : Text) (hl : '\n' ∉ l) : '\n' ∉ inline l :=
  line_apply oneLine_italic (line_bold l hl)

theorem bold_line {l : Text} (hl : '\n' ∉ l) : bold l = Marker.bold.pair l :=
  apply_eq_pair oneLine_bold hl

theorem inline_line {l : Text} (hl : '\n' ∉ l) :
    inline l = Marker.italic.pair (Marker.bold.pair l) := by
  rw [← bold_line hl]
  exact apply_eq_pair oneLine_italic (line_bold l hl)

theorem lineBreaks_bold_append_newline (a b : Text) (ha : '\n' ∉ a) :
    Html.lineBreaks (bold (a ++ '\n' :: b)) = bold a ++ ("<br>".toList ++ Html.lineBreaks (bold b)) := by
  rw [bold_append_newline a b ha, Html.lineBreaks_append, Html.lineBreaks_of_line (line_bold a ha)]
  rfl

/-- Emphasis pairs the markers of each line, bold ones first and then italic ones in the result. The
lines of the result are the lines of the text with emphasis, so no emphasis reaches over a newline,
and written with line breaks they are set apart by these alone. -/
theorem paired_by_line (t : Text) :
    bold t = ['\n'].intercalate (t.lines.map Marker.bold.pair) ∧
      inline t = ['\n'].intercalate
        (t.lines.map fun line => Marker.italic.pair (Marker.bold.pair line)) ∧
      (bold t).lines = t.lines.map bold ∧ (inline t).lines = t.lines.map inline ∧
      Html.lineBreaks (bold t) = "<br>".toList.intercalate (t.lines.map bold) := by
  have hline : ∀ l ∈ t.lines, '\n' ∉ l := fun l hl => notMem_of_mem_splitOn hl
  have hbold : t.lines.map bold = t.lines.map Marker.bold.pair :=
    List.map_congr_left fun l hl => bold_line (hline l hl)
  have hinline : t.lines.map inline =
      t.lines.map fun line => Marker.italic.pair (Marker.bold.pair line) :=
    List.map_congr_left fun l hl => inline_line (hline l hl)
  refine ⟨?_, ?_, lines_eq_map bold_append_newline line_bold t,
    lines_eq_map inline_append_newline line_inline t, ?_⟩
  · rw [← hbold]
    exact eq_intercalate_lines ['\n'] bold_append_newline t
  · rw [← hinline]
    exact eq_intercalate_lines ['\n'] inline_append_newline t
  · have hbreaks : t.lines.map (fun l => Html.lineBreaks (bold l)) = t.lines.map bold :=
      List.map_congr_left fun l hl => Html.lineBreaks_of_line (line_bold l (hline l hl))
    rw [← hbreaks]
    refine eq_intercalate_lines (f := fun l => Html.lineBreaks (bold l)) "<br>".toList ?_ t
    intro a b ha
    rw [lineBreaks_bold_append_newline a b ha, Html.lineBreaks_of_line (line_bold a ha)]

end Emphasis
end Bulletin
