import Bulletin.Proofs.Emphasis.Leftover
import Bulletin.Proofs.Html.Nesting
import Mathlib.Data.List.Infix

/-! Emphasis within emphasis. The tags of one emphasis come in pairs, each opening tag followed by
its closing tag, but the italic pass pairs the asterisks of a line without a look at the bold tags
between them. The two emphases of a line keep clear of each other exactly where every bold span
either stands behind all asterisks that have a partner, or holds none and stands behind an even
number of them. -/

namespace Bulletin

namespace Html

/-- Tags that come in pairs, each opening tag followed at once by the closing tag of its name. -/
inductive InPairs : List Tag → Prop where
  | nil : InPairs []
  | pair (name : Text) {ts : List Tag} (h : InPairs ts) :
    InPairs (.opening name :: .closing name :: ts)

def tagsOf (name : Text) (ts : List Tag) : List Tag :=
  ts.filter fun tag => tag = .opening name ∨ tag = .closing name

@[simp] theorem inPairs_nil : InPairs [] := .nil

@[simp] theorem inPairs_pair_iff {name : Text} {ts : List Tag} :
    InPairs (.opening name :: .closing name :: ts) ↔ InPairs ts :=
  ⟨fun h => by cases h; assumption, .pair name⟩

@[simp] theorem not_inPairs_opening_opening {name name' : Text} {ts : List Tag} :
    ¬ InPairs (.opening name :: .opening name' :: ts) := fun h => by cases h

end Html

namespace Emphasis
open Text Marker Html

/-- A line with its first `k` asterisks written as italic tags, opening and closing in turn so that
the last of them closes. -/
def italicize : Nat → Text → Text
  | _, [] => []
  | 0, c :: r => c :: italicize 0 r
  | k + 1, c :: r =>
    if c = '*' then
      (if k % 2 = 1 then italic.opening else italic.closing) ++ italicize k r
    else c :: italicize (k + 1) r

theorem italicize_zero (t : Text) : italicize 0 t = t := by
  induction t with
  | nil => rfl
  | cons c r ih => rw [italicize, ih]

theorem italicize_append_of_notMem {a : Text} (ha : '*' ∉ a) (k : Nat) (m : Text) :
    italicize k (a ++ m) = a ++ italicize k m := by
  induction a with
  | nil => rfl
  | cons c a ih =>
    simp only [List.mem_cons, not_or] at ha
    cases k <;> simp [italicize, ih ha.2, Ne.symm ha.1]

theorem italicize_star (k : Nat) (r : Text) : italicize (k + 1) ('*' :: r) =
    (if k % 2 = 1 then italic.opening else italic.closing) ++ italicize k r := by
  rw [italicize, if_pos rfl]

theorem italic_line {l : Text} (hl : '\n' ∉ l) :
    italic.apply l = italicize (2 * (l.count '*' / 2)) l := by
  refine pairing_induction oneLine_italic
    (P := fun l => italic.apply l = italicize (2 * (l.count '*' / 2)) l) ?single ?pair hl
  case single =>
    intro l _ h
    have hone : l.count '*' / 2 = 0 := by
      have hle := count_of_single_italic h
      omega
    rw [apply_of_single h, hone, Nat.mul_zero, italicize_zero]
  case pair =>
    intro l a r b s hl h hr ih
    have ha : '*' ∉ a := fun hm =>
      not_infix_of_cut? (by decide) h ((List.singleton_infix_iff '*' a).mpr hm)
    have hb : '*' ∉ b := fun hm =>
      not_infix_of_cut? (by decide) hr ((List.singleton_infix_iff '*' b).mpr hm)
    have hsplit : l = a ++ '*' :: (b ++ '*' :: s) := by
      rw [eq_append_of_cut? h, eq_append_of_cut? hr]
      simp [italic]
    have hcount : 2 * (l.count '*' / 2) = 2 * (s.count '*' / 2) + 1 + 1 := by
      rw [hsplit]
      simp only [List.count_append, List.count_cons_self, List.count_eq_zero_of_not_mem ha,
        List.count_eq_zero_of_not_mem hb]
      omega
    rw [apply_of_cut? oneLine_italic hl h hr, ih, hcount, hsplit, italicize_append_of_notMem ha,
      italicize_star, if_pos (by omega), italicize_append_of_notMem hb, italicize_star,
      if_neg (by omega)]

theorem isElement_bold : IsElement "b" := (isElement rfl)
theorem isElement_italic : IsElement "i" := ⟨by decide, by decide⟩

def italicTags (k : Nat) (m : Text) : List Tag := tags (italicize k m)

theorem italicTags_zero (m : Text) : italicTags 0 m = tags m := by
  rw [italicTags, italicize_zero]

theorem italicTags_nil (k : Nat) : italicTags k [] = [] := by
  simp [italicTags, italicize]

theorem italicTags_star (k : Nat) (m : Text) : italicTags (k + 1) ('*' :: m) =
    (if k % 2 = 1 then .opening "i" else .closing "i") :: italicTags k m := by
  rw [italicTags, italicize_star]
  split
  · exact isElement_italic.reads_openTag isAttributes_nil _
  · exact reads_closeTag isElement_italic.isName _

theorem italicTags_cons {c : Char} (hc : c ≠ '<') {k : Nat} (hk : k = 0 ∨ c ≠ '*') (m : Text) :
    italicTags k (c :: m) = italicTags k m := by
  have hkept : italicize k (c :: m) = [c] ++ italicize k m := by
    cases k with
    | zero => rfl
    | succ k => simp [italicize, hk.resolve_left]
  rw [italicTags, hkept]
  exact reads_char hc _

/-- A character that begins no tag is kept, or it is the next asterisk written as one. -/
theorem italicTags_cases {c : Char} (hc : c ≠ '<') (k : Nat) (m : Text) :
    ((k = 0 ∨ c ≠ '*') ∧ italicTags k (c :: m) = italicTags k m) ∨
      ∃ j, k = j + 1 ∧ c = '*' ∧ italicTags k (c :: m) =
        (if j % 2 = 1 then .opening "i" else .closing "i") :: italicTags j m := by
  by_cases hs : k = 0 ∨ c ≠ '*'
  · exact Or.inl ⟨hs, italicTags_cons hc hs m⟩
  · obtain ⟨hpos, rfl⟩ : k ≠ 0 ∧ c = '*' := by simpa using hs
    obtain ⟨j, rfl⟩ := Nat.exists_eq_add_one_of_ne_zero hpos
    exact Or.inr ⟨j, rfl, rfl, italicTags_star j m⟩

theorem italicTags_append {a : Text} (ha : Plain a) {k : Nat} (hk : k = 0 ∨ '*' ∉ a) (m : Text) :
    italicTags k (a ++ m) = italicTags k m := by
  induction a with
  | nil => rfl
  | cons c a ih =>
    obtain ⟨hc, ha⟩ := plain_cons_iff.mp ha
    have hk' : (k = 0 ∨ c ≠ '*') ∧ (k = 0 ∨ '*' ∉ a) := by
      simp only [List.mem_cons, not_or] at hk
      exact ⟨hk.imp_right fun h => Ne.symm h.1, hk.imp_right And.right⟩
    rw [List.cons_append, italicTags_cons hc hk'.1, ih ha hk'.2]

/-- The first asterisk of a text without tags is the next to be written. -/
theorem exists_italicTags_append {a : Text} (ha : Plain a) (hs : '*' ∈ a) (k : Nat) (m : Text) :
    ∃ ts, italicTags (k + 1) (a ++ m) =
      (if k % 2 = 1 then .opening "i" else .closing "i") :: ts := by
  obtain ⟨u, v, rfl, hu⟩ := List.eq_append_cons_of_mem hs
  refine ⟨italicTags k (v ++ m), ?_⟩
  rw [List.append_assoc, italicTags_append (plain_append_iff.mp ha).1 (Or.inr hu), List.cons_append,
    italicTags_star]

theorem italicTags_opening (k : Nat) (m : Text) :
    italicTags k (Marker.bold.opening ++ m) = .opening "b" :: italicTags k m := by
  rw [italicTags, italicize_append_of_notMem (by decide)]
  exact isElement_bold.reads_openTag isAttributes_nil _

theorem italicTags_closing (k : Nat) (m : Text) :
    italicTags k (Marker.bold.closing ++ m) = .closing "b" :: italicTags k m := by
  rw [italicTags, italicize_append_of_notMem (by decide)]
  exact reads_closeTag isElement_bold.isName _

/-- The italic tag that is open when `k` more are to be written. -/
def pending (k : Nat) : List Tag := if k % 2 = 1 then [.opening "i"] else []

theorem inPairs_pending_star {k : Nat} {ts : List Tag} :
    InPairs (pending (k + 1) ++ (if k % 2 = 1 then .opening "i" else .closing "i") :: ts) ↔
      InPairs (pending k ++ ts) := by
  by_cases h : k % 2 = 1
  · have h' : ¬ (k + 1) % 2 = 1 := by omega
    simp [pending, h, h']
  · have h' : (k + 1) % 2 = 1 := by omega
    simp [pending, h, h']

/-- A character that begins no tag takes the italic tag it is written as from those to come. -/
theorem inPairs_pending_cons {f : List Tag → List Tag}
    (hf : ∀ tag ∈ [Tag.opening "i", .closing "i"], ∀ ts, f (tag :: ts) = tag :: f ts) {c : Char}
    (hc : c ≠ '<') {k : Nat} {m : Text} (hk : k ≤ (c :: m).count '*') :
    k - [c].count '*' ≤ m.count '*' ∧
      (InPairs (pending k ++ f (italicTags k (c :: m))) ↔
        InPairs (pending (k - [c].count '*') ++ f (italicTags (k - [c].count '*') m))) := by
  rcases italicTags_cases hc k m with ⟨hs, htags⟩ | ⟨k, rfl, rfl, htags⟩
  · have hkept : k - [c].count '*' = k ∧ k ≤ m.count '*' := by
      rcases hs with rfl | hs
      · exact ⟨Nat.zero_sub _, Nat.zero_le _⟩
      · rw [List.count_cons_of_ne hs] at hk ⊢
        exact ⟨Nat.sub_zero k, hk⟩
    rw [hkept.1, htags]
    exact ⟨hkept.2, Iff.rfl⟩
  · have htag : f (italicTags (k + 1) ('*' :: m)) =
        (if k % 2 = 1 then .opening "i" else .closing "i") :: f (italicTags k m) := by
      rw [htags]
      split
      · exact hf _ (by simp) _
      · exact hf _ (by simp) _
    rw [List.count_cons_self] at hk
    rw [htag, inPairs_pending_star]
    exact ⟨by simpa using hk, Iff.rfl⟩

/-! ### One emphasis by itself -/

theorem inPairs_italic {t m : Text} (h : Marker.bold.Tagged t m) (ht : Plain t) {k : Nat}
    (hk : k ≤ m.count '*') : InPairs (pending k ++ tagsOf "i" (italicTags k m)) := by
  induction h generalizing k with
  | nil =>
    obtain rfl : k = 0 := by simpa using hk
    simp [pending, italicTags_nil, tagsOf]
  | @char c t m _ ih =>
    obtain ⟨hc, ht'⟩ := plain_cons_iff.mp ht
    obtain ⟨hk', hiff⟩ := @inPairs_pending_cons (tagsOf "i") (by simp [tagsOf]) c hc k m hk
    exact hiff.mpr (ih ht' hk')
  | @tag tag t m htag _ ih =>
    have ht' : Plain t := (plain_append_iff.mp ht).2
    have hskip : tagsOf "i" (italicTags k (tag ++ m)) = tagsOf "i" (italicTags k m) ∧
        (tag ++ m).count '*' = m.count '*' := by
      rcases htag with rfl | rfl
      · rw [italicTags_opening]
        exact ⟨rfl, rfl⟩
      · rw [italicTags_closing]
        exact ⟨rfl, rfl⟩
    rw [hskip.2] at hk
    rw [hskip.1]
    exact ih ht' hk

theorem exists_tagsOf_append {a : Text} (ha : Plain a) (k : Nat) (m : Text) :
    ∃ k', tagsOf "b" (italicTags k (a ++ m)) = tagsOf "b" (italicTags k' m) := by
  induction a generalizing k with
  | nil => exact ⟨k, rfl⟩
  | cons c a ih =>
    obtain ⟨hc, ha'⟩ := plain_cons_iff.mp ha
    rw [List.cons_append]
    rcases italicTags_cases hc k (a ++ m) with ⟨-, htags⟩ | ⟨k, rfl, rfl, htags⟩
    · rw [htags]
      exact ih ha' k
    · obtain ⟨k', hk'⟩ := ih ha' k
      refine ⟨k', ?_⟩
      rw [htags, ← hk']
      split <;> rfl

theorem inPairs_bold {t m : Text} (h : Marker.bold.Paired t m) (ht : Plain t) (k : Nat) :
    InPairs (tagsOf "b" (italicTags k m)) := by
  induction h generalizing k with
  | nil => simp [italicTags_nil, tagsOf]
  | @char c t m _ ih =>
    obtain ⟨hc, ht⟩ := plain_cons_iff.mp ht
    obtain ⟨k', hk'⟩ := @exists_tagsOf_append [c] (plain_cons_iff.mpr ⟨hc, by simp [Plain]⟩) k m
    rw [← List.singleton_append, hk']
    exact ih ht k'
  | @span inner t m _ ih =>
    simp only [plain_append_iff] at ht
    obtain ⟨-, hinner, -, ht⟩ := ht
    obtain ⟨k', hk'⟩ := exists_tagsOf_append hinner k (Marker.bold.closing ++ m)
    have hopening : tagsOf "b" (italicTags k
        (Marker.bold.opening ++ (inner ++ (Marker.bold.closing ++ m)))) =
          .opening "b" :: tagsOf "b" (italicTags k (inner ++ (Marker.bold.closing ++ m))) := by
      rw [italicTags_opening]
      rfl
    have hclosing : tagsOf "b" (italicTags k' (Marker.bold.closing ++ m)) =
        .closing "b" :: tagsOf "b" (italicTags k' m) := by
      rw [italicTags_closing]
      rfl
    rw [hopening, hk', hclosing]
    exact .pair _ (ih ht k')

/-! ### The two together -/

/-- Every bold span of `m` stands behind the first `k` asterisks, or behind a number of them that
leaves an even number of the `k`, and holds none. -/
def Clear (k : Nat) (m : Text) : Prop :=
  ∀ x inner y, m = x ++ (Marker.bold.opening ++ (inner ++ (Marker.bold.closing ++ y))) →
    Plain inner → k ≤ x.count '*' ∨ (k + x.count '*') % 2 = 0 ∧ '*' ∉ inner

theorem clear_shift {k n c : Nat} {P : Prop} :
    k ≤ n + c ∨ (k + (n + c)) % 2 = 0 ∧ P ↔ k - n ≤ c ∨ (k - n + c) % 2 = 0 ∧ P := by
  have hle : k ≤ n + c ↔ k - n ≤ c := by omega
  by_cases h : k ≤ n + c
  · simp [h, hle.mp h]
  · have hmod : (k + (n + c)) % 2 = 0 ↔ (k - n + c) % 2 = 0 := by omega
    rw [hle, hmod]

theorem exists_of_plain_append {a m x y : Text} (ha : Plain a) (h : a ++ m = x ++ '<' :: y) :
    ∃ x', x = a ++ x' ∧ m = x' ++ '<' :: y := by
  rcases List.append_eq_append_iff.mp h with ⟨x', hx, hm⟩ | ⟨x', hx, hm⟩
  · exact ⟨x', hx, hm⟩
  · cases x' with
    | nil => exact ⟨[], by simpa using hx.symm, by simpa using hm.symm⟩
    | cons c x' =>
      obtain ⟨rfl, -⟩ := List.cons.inj hm
      exact absurd (by simp [hx]) ha

theorem clear_append {a : Text} (ha : Plain a) {k : Nat} {m : Text} :
    Clear k (a ++ m) ↔ Clear (k - a.count '*') m := by
  constructor
  · intro h x inner y hm hinner
    have hx := h (a ++ x) inner y (by rw [hm, List.append_assoc]) hinner
    rw [List.count_append] at hx
    exact clear_shift.mp hx
  · intro h x inner y hm hinner
    obtain ⟨x, rfl, rfl⟩ := exists_of_plain_append ha hm
    rw [List.count_append]
    exact clear_shift.mpr (h x inner y rfl hinner)

theorem bold_opening_eq : Marker.bold.opening = '<' :: "b>".toList := by decide
theorem bold_closing_eq : Marker.bold.closing = '<' :: "/b>".toList := by decide

/-- Two bold spans are one, or stand one behind the other. -/
theorem span_eq_append {inner inner' m x y : Text} (h : Plain inner) (h' : Plain inner')
    (heq : Marker.bold.opening ++ (inner ++ (Marker.bold.closing ++ m)) =
      x ++ (Marker.bold.opening ++ (inner' ++ (Marker.bold.closing ++ y)))) :
    (x = [] ∧ inner' = inner) ∨
      ∃ x', x = Marker.bold.opening ++ (inner ++ (Marker.bold.closing ++ x')) ∧
        m = x' ++ (Marker.bold.opening ++ (inner' ++ (Marker.bold.closing ++ y))) := by
  rw [bold_opening_eq, bold_closing_eq] at heq ⊢
  simp only [List.cons_append] at heq ⊢
  cases x with
  | nil =>
    refine Or.inl ⟨rfl, ?_⟩
    have hrest := List.append_cancel_left (List.cons.inj heq).2
    calc inner' = (inner' ++ '<' :: ("/b>".toList ++ y)).takeWhile (· ≠ '<') :=
          (takeWhile_append_of_notMem h').symm
      _ = (inner ++ '<' :: ("/b>".toList ++ m)).takeWhile (· ≠ '<') := congrArg _ hrest.symm
      _ = inner := takeWhile_append_of_notMem h
  | cons c x =>
    obtain ⟨rfl, htail⟩ := List.cons.inj heq
    have hinner : Plain ("b>".toList ++ inner) := plain_append_iff.mpr ⟨by decide, h⟩
    rw [← List.append_assoc] at htail
    obtain ⟨x, rfl, hclosing⟩ := exists_of_plain_append hinner htail
    cases x with
    | nil => simp at hclosing
    | cons d x =>
      obtain ⟨rfl, hrest⟩ := List.cons.inj hclosing
      obtain ⟨x, rfl, rfl⟩ := exists_of_plain_append (a := "/b>") (by decide) hrest
      exact Or.inr ⟨x, by simp, rfl⟩

theorem count_span (inner m : Text) :
    (Marker.bold.opening ++ (inner ++ (Marker.bold.closing ++ m))).count '*' =
      inner.count '*' + m.count '*' := by
  simp only [List.count_append, bold_opening_eq, bold_closing_eq]
  simp

theorem clear_span {inner : Text} (h : Plain inner) {k : Nat} {m : Text} :
    Clear k (Marker.bold.opening ++ (inner ++ (Marker.bold.closing ++ m))) ↔
      (k = 0 ∨ k % 2 = 0 ∧ '*' ∉ inner) ∧ Clear (k - inner.count '*') m := by
  constructor
  · intro hclear
    refine ⟨by simpa using hclear [] inner m rfl h, fun x inner' y hm h' => ?_⟩
    have hx := hclear (Marker.bold.opening ++ (inner ++ (Marker.bold.closing ++ x))) inner' y
      (by simp [hm]) h'
    rw [count_span] at hx
    exact clear_shift.mp hx
  · rintro ⟨hfirst, hclear⟩ x inner' y hm h'
    rcases span_eq_append h h' hm with ⟨rfl, rfl⟩ | ⟨x, rfl, hrest⟩
    · simpa using hfirst
    · rw [count_span]
      exact clear_shift.mpr (hclear x inner' y hrest h')

/-- The tags of a line come in pairs exactly where its bold spans are clear of the italic ones. -/
theorem inPairs_italicTags_iff {t m : Text} (h : Marker.bold.Paired t m) (ht : Plain t) {k : Nat}
    (hk : k ≤ m.count '*') : InPairs (pending k ++ italicTags k m) ↔ Clear k m := by
  induction h generalizing k with
  | nil =>
    obtain rfl : k = 0 := by simpa using hk
    simp [pending, italicTags_nil, Clear]
  | @char c t m _ ih =>
    obtain ⟨hc, ht'⟩ := plain_cons_iff.mp ht
    have hclear := @clear_append [c] (plain_cons_iff.mpr ⟨hc, by simp [Plain]⟩) k m
    rw [List.singleton_append] at hclear
    rw [hclear]
    obtain ⟨hk', hiff⟩ := @inPairs_pending_cons id (by simp) c hc k m hk
    exact hiff.trans (ih ht' hk')
  | @span inner t m _ ih =>
    simp only [plain_append_iff] at ht
    obtain ⟨-, hinner, -, ht⟩ := ht
    rw [clear_span hinner, italicTags_opening]
    rw [count_span] at hk
    by_cases hodd : k % 2 = 1
    · -- an italic tag is open where the bold span begins
      refine iff_of_false (by simp [pending, hodd]) fun hclear => ?_
      have hfirst := hclear.1
      omega
    have hpending : pending k = [] := if_neg hodd
    by_cases hs : k = 0 ∨ '*' ∉ inner
    · have hkept : k - inner.count '*' = k ∧ k ≤ m.count '*' := by
        rcases hs with rfl | hs
        · exact ⟨Nat.zero_sub _, Nat.zero_le _⟩
        · rw [List.count_eq_zero_of_not_mem hs] at hk ⊢
          omega
      have hfirst : k = 0 ∨ k % 2 = 0 ∧ '*' ∉ inner := hs.imp_right fun hs => ⟨by omega, hs⟩
      have hrest := ih ht hkept.2
      rw [hpending, List.nil_append] at hrest
      rw [hpending, hkept.1, italicTags_append hinner hs, italicTags_closing, List.nil_append,
        inPairs_pair_iff, hrest, and_iff_right hfirst]
    · -- an italic tag opens within the bold span
      obtain ⟨hpos, hstar⟩ : k ≠ 0 ∧ '*' ∈ inner := by simpa using hs
      obtain ⟨k, rfl⟩ := Nat.exists_eq_add_one_of_ne_zero hpos
      obtain ⟨ts, htags⟩ := exists_italicTags_append hinner hstar k (Marker.bold.closing ++ m)
      refine iff_of_false ?_ fun hclear => hs (hclear.1.imp_right And.right)
      rw [hpending, List.nil_append, htags, if_pos (by omega)]
      exact not_inPairs_opening_opening

/-- One emphasis never stands within itself: the bold tags of a line come in pairs, and so do the
italic ones. Taken together the tags come in pairs exactly where every bold span stands behind all
asterisks that have a partner, or holds none and stands behind an even number of them. -/
theorem inPairs_inline_iff {line : Text} (hline : '\n' ∉ line) (h : Plain line) :
    InPairs (tags (bold line)) ∧
      InPairs (tagsOf "b" (tags (inline line))) ∧ InPairs (tagsOf "i" (tags (inline line))) ∧
      (InPairs (tags (inline line)) ↔
        ∀ x inner y, bold line = x ++ (Marker.bold.opening ++ (inner ++ (Marker.bold.closing ++ y))) →
          Plain inner → 2 * ((bold line).count '*' / 2) ≤ x.count '*' ∨
            x.count '*' % 2 = 0 ∧ '*' ∉ inner) := by
  have hpaired : Marker.bold.Paired line (bold line) := paired_apply oneLine_bold.token_ne_nil line
  have htags : tags (inline line) = italicTags (2 * ((bold line).count '*' / 2)) (bold line) :=
    congrArg tags (italic_line (line_bold line hline))
  have hle : 2 * ((bold line).count '*' / 2) ≤ (bold line).count '*' := Nat.mul_div_le _ 2
  have hpending : ∀ n, pending (2 * n) = [] := fun n => if_neg (by omega)
  have hbold := inPairs_italicTags_iff hpaired h (Nat.zero_le _)
  have hitalic := inPairs_italic hpaired.tagged h hle
  have hboth := inPairs_italicTags_iff hpaired h hle
  rw [hpending, List.nil_append] at hitalic hboth
  rw [htags]
  refine ⟨?_, inPairs_bold hpaired h _, hitalic, hboth.trans ?_⟩
  · rw [← italicTags_zero]
    exact hbold.mpr fun x _ _ _ _ => Or.inl (Nat.zero_le _)
  · simp only [Clear, Nat.mul_add_mod]

/-- A bold span holds the first of two asterisks, so the italic span reaches out of it. -/
theorem inPairs_inline_iff_overlap :
    let line : Text := "***a** b*"
    '\n' ∉ line ∧ Plain line ∧ inline line = "<b><i>a</b> b</i>".toList ∧
      InPairs (tagsOf "b" (tags (inline line))) ∧ InPairs (tagsOf "i" (tags (inline line))) ∧
      ¬ InPairs (tags (inline line)) := by
  intro line
  have hline : '\n' ∉ line := by decide
  have hplain : Plain line := by decide
  obtain ⟨-, hb, hi, hboth⟩ := inPairs_inline_iff hline hplain
  refine ⟨hline, hplain, by decide, hb, hi, fun h => ?_⟩
  have hbold : bold line = [] ++ (Marker.bold.opening ++ ("*a".toList ++
      (Marker.bold.closing ++ " b*".toList))) := by decide
  rcases hboth.mp h [] "*a" " b*" hbold (by decide) with hbehind | ⟨-, hfree⟩
  · rw [hbold] at hbehind
    exact absurd hbehind (by decide)
  · exact hfree (by decide)

/-- An italic span reaches into a bold one, and one holds a bold one. -/
theorem inPairs_inline_fails :
    inline "**a*b**c*" = "<b>a<i>b</b>c</i>".toList ∧
      inline "*a **b** c*" = "<i>a <b>b</b> c</i>".toList ∧
      ¬ ∀ line : Text, '\n' ∉ line → Plain line → InPairs (tags (inline line)) := by
  have hreach : inline "**a*b**c*" = "<b>a<i>b</b>c</i>".toList := by decide
  have hhold : inline "*a **b** c*" = "<i>a <b>b</b> c</i>".toList := by decide
  refine ⟨hreach, hhold, fun hall => ?_⟩
  have hpairs := hall "**a*b**c*" (by decide) (by decide)
  have htags : tags "<b>a<i>b</b>c</i>" =
      [.opening "b", .opening "i", .closing "b", .closing "i"] := by decide
  rw [hreach, htags] at hpairs
  exact not_inPairs_opening_opening hpairs

end Emphasis
end Bulletin
