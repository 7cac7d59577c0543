import Bulletin.Proofs.Html.Tag
import Mathlib.Data.List.Infix

/-! The plain text of a title. `Whole` says, without searching, which texts consist of characters,
closed tags and closed comments. Removing tags leaves the characters of the longest whole beginning,
and whatever follows it; collapsing keeps the characters that are not blank; and decoding, which
comes last, gives every text back that has its brackets written as references. -/

namespace Bulletin.Text

/-! ### Words

The words of a text hold all its characters that are not blank, in order; and a text in which every
such character is written in some other way has the words written in this way. -/

theorem blankPieces_blank_cons {c : Char} (hc : isBlank c = true) (r : Text) :
    blankPieces (c :: r) = [] :: blankPieces r := by
  simp [blankPieces, hc]

theorem blankPieces_append {w r p : Text} {ps : List Text} (hw : ∀ c ∈ w, isBlank c = false)
    (hr : blankPieces r = p :: ps) : blankPieces (w ++ r) = (w ++ p) :: ps := by
  induction w with
  | nil => exact hr
  | cons c w ih =>
    have hc : isBlank c = false := hw c List.mem_cons_self
    simp [blankPieces, hc, ih fun d hd => hw d (List.mem_cons_of_mem c hd)]

theorem blankPieces_solid_cons {c : Char} {r p : Text} {ps : List Text} (hc : isBlank c = false)
    (hr : blankPieces r = p :: ps) : blankPieces (c :: r) = (c :: p) :: ps :=
  blankPieces_append (w := [c]) (by simpa using hc) hr

theorem flatten_words (t : Text) : (words t).flatten = t.filter fun c => !isBlank c := by
  rw [words, List.flatten_filter_ne_nil]
  induction t with
  | nil => rfl
  | cons c r ih =>
    by_cases hc : isBlank c = true
    · simp [blankPieces_blank_cons hc, hc, ih]
    · obtain ⟨p, ps, hr⟩ := List.exists_cons_of_ne_nil (blankPieces_ne_nil r)
      have hcons : blankPieces (c :: r) = (c :: p) :: ps := blankPieces_solid_cons (by simpa using hc) hr
      simp_all

/-- A way to write characters that keeps the blank ones and writes the others without blanks. -/
structure KeepsBlanks (f : Char → Text) : Prop where
  blank : ∀ c, isBlank c = true → f c = [c]
  solid : ∀ c, isBlank c = false → f c ≠ [] ∧ ∀ d ∈ f c, isBlank d = false

theorem KeepsBlanks.flatMap_eq_nil_iff {f : Char → Text} (hf : KeepsBlanks f) {t : Text} :
    t.flatMap f = [] ↔ t = [] := by
  cases t with
  | nil => simp
  | cons c r =>
    cases hc : isBlank c with
    | true => simp [hf.blank c hc]
    | false => simp [(hf.solid c hc).1]

theorem KeepsBlanks.blankPieces_flatMap {f : Char → Text} (hf : KeepsBlanks f) (t : Text) :
    blankPieces (t.flatMap f) = (blankPieces t).map fun p => p.flatMap f := by
  induction t with
  | nil => rfl
  | cons c r ih =>
    rw [List.flatMap_cons]
    cases hc : isBlank c with
    | true =>
      rw [hf.blank c hc, List.singleton_append, blankPieces_blank_cons hc,
        blankPieces_blank_cons hc, ih]
      rfl
    | false =>
      obtain ⟨p, ps, hr⟩ := List.exists_cons_of_ne_nil (blankPieces_ne_nil r)
      rw [hr, List.map_cons] at ih
      rw [blankPieces_append (hf.solid c hc).2 ih, blankPieces_solid_cons hc hr]
      rfl

theorem KeepsBlanks.words_flatMap {f : Char → Text} (hf : KeepsBlanks f) (t : Text) :
    words (t.flatMap f) = (words t).map fun w => w.flatMap f := by
  rw [words, hf.blankPieces_flatMap, List.filter_map, words]
  congr 1
  refine List.filter_congr fun p _ => ?_
  simp [hf.flatMap_eq_nil_iff]

end Bulletin.Text

namespace Bulletin.Html
open Text

/-! ### Tags and comments removed -/

/-- `Whole a p`: every tag and every comment that begins in `a` is closed in `a`, and `p` is what is
left without them. -/
inductive Whole : Text → Text → Prop where
  | nil : Whole [] []
  | char {c : Char} {a p : Text} (hc : c ≠ '<') (h : Whole a p) : Whole (c :: a) (c :: p)
  | tag {x a p : Text} (hend : '>' ∉ x) (hx : ¬ "!--".toList <+: x) (h : Whole a p) :
    Whole ('<' :: (x ++ '>' :: a)) p
  | comment {x a p : Text} (hx : ¬ "-->".toList <:+: x) (h : Whole a p) :
    Whole ("<!--".toList ++ (x ++ ("-->".toList ++ a))) p

/-- A text that begins with a tag or a comment and never closes it. -/
inductive Unclosed : Text → Prop where
  | tag {x : Text} (hend : '>' ∉ x) (hx : ¬ "!--".toList <+: x) : Unclosed ('<' :: x)
  | comment {x : Text} (hx : ¬ "-->".toList <:+: x) : Unclosed ("<!--".toList ++ x)

theorem Whole.plain {a p : Text} (h : Whole a p) : Plain p := by
  induction h with
  | nil => decide
  | char hc _ ih => exact plain_cons_iff.mpr ⟨hc, ih⟩
  | tag _ _ _ ih => exact ih
  | comment _ _ ih => exact ih

/-- Every text is whole up to a tag or a comment that is never closed. -/
theorem exists_whole (t : Text) : ∃ a p b, Whole a p ∧ t = a ++ b ∧ (b = [] ∨ Unclosed b) := by
  induction hn : t.length using Nat.strongRecOn generalizing t with
  | ind n ih =>
    cases t with
    | nil => exact ⟨[], [], [], .nil, rfl, Or.inl rfl⟩
    | cons c r =>
      by_cases hc : c = '<'
      · subst hc
        by_cases hcomment : "!--".toList <+: r
        · obtain ⟨y, rfl⟩ := hcomment
          cases hcut : cut? y "-->" with
          | none => exact ⟨[], [], _, .nil, rfl, Or.inr (.comment (cut?_eq_none_iff.mp hcut))⟩
          | some q =>
            obtain ⟨x, z⟩ := q
            have hy : y = x ++ ("-->".toList ++ z) := by
              rw [eq_append_of_cut? hcut, List.append_assoc]
            have hlen : z.length < n := by
              rw [← hn, hy]
              simp only [List.length_cons, List.length_append]
              omega
            obtain ⟨a, p, b, ha, rfl, hb⟩ := ih z.length hlen z rfl
            refine ⟨_, p, b, .comment (not_infix_of_cut? (by decide) hcut) ha, ?_, hb⟩
            rw [hy]
            simp
        · cases hcut : cut? r ['>'] with
          | none =>
            have hend : '>' ∉ r := by
              rw [← List.singleton_infix_iff]
              exact cut?_eq_none_iff.mp hcut
            exact ⟨[], [], _, .nil, rfl, Or.inr (.tag hend hcomment)⟩
          | some q =>
            obtain ⟨x, z⟩ := q
            have hr : r = x ++ '>' :: z := by simpa using eq_append_of_cut? hcut
            have hlen : z.length < n := by
              rw [← hn, hr]
              simp only [List.length_cons, List.length_append]
              omega
            obtain ⟨a, p, b, ha, rfl, hb⟩ := ih z.length hlen z rfl
            have hend : '>' ∉ x := by
              rw [← List.singleton_infix_iff]
              exact not_infix_of_cut? (by simp) hcut
            have hx : ¬ "!--".toList <+: x := fun hp =>
              hcomment (hr ▸ hp.trans (List.prefix_append _ _))
            exact ⟨_, p, b, .tag hend hx ha, by rw [hr]; simp, hb⟩
      · obtain ⟨a, p, b, ha, rfl, hb⟩ := ih r.length (by simp [← hn]) r rfl
        exact ⟨c :: a, c :: p, b, .char hc ha, rfl, hb⟩

theorem stripTagsFrom_skip (n : Nat) (t : Text) : stripTagsFrom n t = stripTags (t.drop n) := by
  induction t generalizing n with
  | nil => cases n <;> rfl
  | cons c r ih => cases n with
    | zero => rfl
    | succ n => simp [stripTagsFrom, ih]

theorem stripTagsFrom_sublist (n : Nat) (t : Text) : (stripTagsFrom n t).Sublist t := by
  induction t generalizing n with
  | nil => cases n <;> exact .slnil
  | cons c r ih => cases n with
    | succ n => exact (ih n).cons c
    | zero =>
      rw [stripTagsFrom]
      split
      · split
        · exact (ih _).cons c
        · exact List.Sublist.refl _
      · exact (ih 0).cons_cons c

theorem stripTags_of_closed {r : Text} {n : Nat} (h : tagLength? ('<' :: r) = some (n + 1)) :
    stripTags ('<' :: r) = stripTags (r.drop n) := by
  rw [stripTags, stripTagsFrom, if_pos rfl, h]
  exact stripTagsFrom_skip n r

theorem stripTags_of_unclosed {r : Text} (h : tagLength? ('<' :: r) = none) :
    stripTags ('<' :: r) = '<' :: r := by
  rw [stripTags, stripTagsFrom, if_pos rfl, h]

theorem stripTags_cons {c : Char} (hc : c ≠ '<') (r : Text) : stripTags (c :: r) = c :: stripTags r := by
  simp [stripTags, stripTagsFrom, hc]

theorem comment_append (r : Text) : "<!--".toList ++ r = '<' :: ("!--".toList ++ r) := rfl

theorem Whole.stripTags_append {a p : Text} (h : Whole a p) (r : Text) :
    stripTags (a ++ r) = p ++ stripTags r := by
  induction h with
  | nil => rfl
  | char hc _ ih => rw [List.cons_append, stripTags_cons hc, ih, List.cons_append]
  | @tag x a p hend hx _ ih =>
    have hlength := tagLength?_tag (a ++ r) hend hx
    have hdrop : (x ++ '>' :: (a ++ r)).drop (x.length + 1) = a ++ r := by simp
    simp only [List.cons_append, List.append_assoc]
    rw [stripTags_of_closed hlength, hdrop, ih]
  | @comment x a p hx _ ih =>
    have hlength := tagLength?_comment (a ++ r) hx
    have hdrop : ("!--".toList ++ (x ++ ("-->".toList ++ (a ++ r)))).drop (x.length + 6) = a ++ r := by
      rw [← List.append_assoc, ← List.append_assoc]
      exact List.drop_left' (by simp)
    simp only [comment_append, List.cons_append, List.append_assoc] at hlength ⊢
    rw [stripTags_of_closed hlength, hdrop, ih]

theorem Unclosed.stripTags_eq {b : Text} (h : Unclosed b) : stripTags b = b := by
  cases h with
  | @tag x hend hx =>
    have hcut : cut? x ['>'] = none :=
      cut?_eq_none_iff.mpr fun hi => hend ((List.singleton_infix_iff _ _).mp hi)
    exact stripTags_of_unclosed (by rw [tagLength?_of_tag hx, hcut]; rfl)
  | @comment x hx =>
    have hlength : tagLength? ("<!--".toList ++ x) = none := by
      rw [tagLength?_of_comment, cut?_eq_none_iff.mpr hx]
      rfl
    exact stripTags_of_unclosed hlength

/-! ### Blank characters and references -/

theorem filter_collapse (t : Text) :
    ((collapse t).filter fun c => !isBlank c) = t.filter fun c => !isBlank c := by
  have hjoin : ∀ ws : List Text, (([' '].intercalate ws).filter fun c => !isBlank c) =
      ws.flatten.filter fun c => !isBlank c := by
    intro ws
    induction ws with
    | nil => rfl
    | cons w ws ih =>
      cases ws with
      | nil => simp
      | cons v ws => simp [List.intercalate_cons_cons, List.filter_append, ih]
  rw [collapse, hjoin, flatten_words, List.filter_filter]
  simp

theorem mem_collapse_iff {c : Char} {t : Text} (hc : isBlank c = false) : c ∈ collapse t ↔ c ∈ t := by
  have hkeep : ∀ u : Text, (c ∈ u.filter fun d => !isBlank d) ↔ c ∈ u := by simp [hc]
  rw [← hkeep, filter_collapse, hkeep]

theorem decodeFrom_skip (n : Nat) (t : Text) : Entity.decodeFrom n t = Entity.decode (t.drop n) := by
  induction t generalizing n with
  | nil => cases n <;> rfl
  | cons c r ih => cases n with
    | zero => rfl
    | succ n => simp [Entity.decodeFrom, ih]

theorem decode_cons {c : Char} {r : Text} (h : c = '&' → Entity.reference? r = none) :
    Entity.decode (c :: r) = c :: Entity.decode r := by
  by_cases hc : c = '&'
  · simp [Entity.decode, Entity.decodeFrom, hc, h hc]
  · simp [Entity.decode, Entity.decodeFrom, hc]

theorem decode_reference {r x : Text} {n : Nat} (h : Entity.reference? r = some (x, n)) :
    Entity.decode ('&' :: r) = x ++ Entity.decode (r.drop n) := by
  rw [← decodeFrom_skip]
  simp [Entity.decode, Entity.decodeFrom, h]

/-- The character as it is, or a reference to its number if it begins a tag or a reference or ends a
tag. -/
def numberedChar (c : Char) : Text :=
  if c = '&' then "&#38;" else if c = '<' then "&#60;" else if c = '>' then "&#62;" else [c]

def numbered (t : Text) : Text := t.flatMap numberedChar

theorem keepsBlanks_numberedChar : KeepsBlanks numberedChar := by
  constructor
  · intro c hc
    have hne : ∀ d, isBlank d = false → c ≠ d := by
      rintro d hd rfl
      simp [hd] at hc
    simp only [numberedChar, if_neg (hne '&' (by decide)), if_neg (hne '<' (by decide)),
      if_neg (hne '>' (by decide))]
  · intro c hc
    unfold numberedChar
    split
    · decide
    split
    · decide
    split
    · decide
    · simpa using hc

theorem plain_numbered (t : Text) : Plain (numbered t) := by
  intro hm
  obtain ⟨c, -, hc⟩ := List.mem_flatMap.mp hm
  unfold numberedChar at hc
  split at hc
  · exact absurd hc (by decide)
  split at hc
  · exact absurd hc (by decide)
  split at hc
  · exact absurd hc (by decide)
  · rename_i hlt _
    exact hlt (List.mem_singleton.mp hc).symm

theorem collapse_numbered (t : Text) : collapse (numbered t) = numbered (collapse t) := by
  have hjoin : ∀ ws : List Text, numbered ([' '].intercalate ws) =
      [' '].intercalate (ws.map numbered) := by
    intro ws
    induction ws with
    | nil => rfl
    | cons w ws ih =>
      cases ws with
      | nil => simp
      | cons v ws =>
        simp only [List.map_cons, List.intercalate_cons_cons] at ih ⊢
        rw [← ih]
        simp [numbered, numberedChar]
  rw [collapse, collapse, hjoin, numbered, keepsBlanks_numberedChar.words_flatMap]
  rfl

theorem decode_numberedChar_append (c : Char) (r : Text) :
    Entity.decode (numberedChar c ++ r) = c :: Entity.decode r := by
  unfold numberedChar
  split
  · subst c; rfl
  split
  · subst c; rfl
  split
  · subst c; rfl
  · rename_i hamp _ _
    exact decode_cons fun hc => absurd hc hamp

theorem decode_numbered (t : Text) : Entity.decode (numbered t) = t := by
  induction t with
  | nil => rfl
  | cons c r ih =>
    have hcons : numbered (c :: r) = numberedChar c ++ numbered r := rfl
    rw [hcons, decode_numberedChar_append, ih]

/-- Every text is plain text of some title, up to its blank characters. -/
theorem plainText_numbered (t : Text) : plainText (numbered t) = collapse t := by
  rw [plainText, stripTags_eq_self (plain_numbered t), collapse_numbered, decode_numbered]

theorem plainText_of_unreferenced {t : Text} (h : '&' ∉ t) :
    plainText t = collapse (stripTags t) := by
  refine Entity.decode_eq_self fun hm => h ?_
  exact (stripTagsFrom_sublist 0 t).subset ((mem_collapse_iff (by decide)).mp hm)

end Bulletin.Html
