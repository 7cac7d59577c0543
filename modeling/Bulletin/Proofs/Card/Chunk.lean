import Bulletin.Proofs.Card.Group

/-! Chunks of a description. A solid text neither holds a break nor takes part in one when newlines
stand before or after it. Solid texts with empty lines between them are cut into just these texts,
and trimming a solid text does not change its groups. -/

namespace Bulletin.Card
open Text

theorem closes_iff_opens_reverse {t : Text} : Closes t ↔ Opens t.reverse := by
  constructor
  · rintro ⟨s, w, hw, rfl⟩
    exact ⟨w.reverse, s.reverse, by simpa [AllBlank] using hw, by simp⟩
  · rintro ⟨w, s, hw, h⟩
    refine ⟨s.reverse, w.reverse, by simpa [AllBlank] using hw, ?_⟩
    rw [← List.reverse_reverse t, h]
    simp

theorem closes_append_iff {a b : Text} : Closes (a ++ b) ↔ Closes b ∨ (AllBlank b ∧ Closes a) := by
  have hb : AllBlank b.reverse ↔ AllBlank b := by simp [AllBlank]
  simp only [closes_iff_opens_reverse, List.reverse_append, opens_append_iff, hb]

theorem not_opens_of_line {t : Text} (h : '\n' ∉ t) : ¬ Opens t := by
  rintro ⟨w, s, -, rfl⟩
  simp at h

theorem not_closes_of_line {t : Text} (h : '\n' ∉ t) : ¬ Closes t := by
  rintro ⟨s, w, -, rfl⟩
  simp at h

/-- No break in the text, and none with newlines before or after it. -/
structure Solid (t : Text) : Prop where
  breakFree : BreakFree t
  not_opens : ¬ Opens t
  not_closes : ¬ Closes t

theorem solid_of_line {t : Text} (h : '\n' ∉ t) : Solid t := by
  refine ⟨fun w _ hi => h (hi.subset (by simp)), not_opens_of_line h, not_closes_of_line h⟩

theorem Solid.line_append {p t : Text} (hp : '\n' ∉ p) (ht : Solid t) : Solid (p ++ t) := by
  refine ⟨?_, ?_, ?_⟩
  · induction p with
    | nil => exact ht.breakFree
    | cons c p ih =>
      simp only [List.mem_cons, not_or] at hp
      exact breakFree_cons_iff.mpr ⟨fun h => absurd h.symm hp.1, ih hp.2⟩
  · rw [opens_append_iff]
    rintro (h | ⟨-, h⟩)
    · exact not_opens_of_line hp h
    · exact ht.not_opens h
  · rw [closes_append_iff]
    rintro (h | ⟨-, h⟩)
    · exact ht.not_closes h
    · exact not_closes_of_line hp h

theorem Solid.append_line {t q : Text} (ht : Solid t) (hq : '\n' ∉ q) : Solid (t ++ q) := by
  refine ⟨?_, ?_, ?_⟩
  · have hb := ht.breakFree
    clear ht
    induction t with
    | nil => exact (solid_of_line hq).breakFree
    | cons c t ih =>
      obtain ⟨hc, ht⟩ := breakFree_cons_iff.mp hb
      refine breakFree_cons_iff.mpr ⟨fun h ho => ?_, ih ht⟩
      rcases opens_append_iff.mp ho with ho | ⟨-, ho⟩
      · exact hc h ho
      · exact not_opens_of_line hq ho
  · rw [opens_append_iff]
    rintro (h | ⟨-, h⟩)
    · exact ht.not_opens h
    · exact not_opens_of_line hq h
  · rw [closes_append_iff]
    rintro (h | ⟨-, h⟩)
    · exact not_closes_of_line hq h
    · exact ht.not_closes h

theorem Solid.append_cons {a b : Text} {x : Char} (ha : Solid a) (hx : isBlank x = false)
    (hb : Solid b) : Solid (a ++ x :: b) := by
  refine ⟨(breakFree_append_cons_iff hx).mpr ⟨ha.breakFree, hb.breakFree⟩, ?_, ?_⟩
  · rw [opens_append_iff]
    rintro (h | ⟨-, h⟩)
    · exact ha.not_opens h
    · exact not_opens_cons hx h
  · rw [closes_append_iff]
    rintro (h | ⟨h, -⟩)
    · rw [← List.singleton_append, closes_append_iff] at h
      rcases h with h | ⟨-, h⟩
      · exact hb.not_closes h
      · exact not_closes_of_line (by simpa using fun he => by simp [← he] at hx) h
    · simp [hx] at h

theorem solid_of_trimmed {t : Text} (ht : Trimmed t) (hb : BreakFree t) : Solid t := by
  refine ⟨hb, ?_, ?_⟩
  · cases t with
    | nil => simp
    | cons c r => exact not_opens_cons ht.not_blank_head
  · rcases List.eq_nil_or_concat t with rfl | ⟨r, c, rfl⟩
    · simp
    · rw [List.concat_eq_append] at ht ⊢
      rw [closes_iff_opens_reverse, List.reverse_append]
      exact not_opens_cons ht.not_blank_last

theorem Clean.solid {t : Text} (h : Clean t) : Solid t := solid_of_trimmed h.trimmed h.breakFree

/-- An empty line after a solid text cuts it off. -/
theorem pieces_append_break {a s : Text} (ha : Solid a) (hs : ¬ Opens s) :
    pieces 0 (a ++ '\n' :: '\n' :: s) = a :: pieces 0 s := by
  have hb := ha.breakFree
  have hc := ha.not_closes
  clear ha
  induction a with
  | nil => exact pieces_break (w := []) (by simp) hs
  | cons c a ih =>
    obtain ⟨hn, hb⟩ := breakFree_cons_iff.mp hb
    rw [← List.singleton_append, closes_append_iff, not_or, not_and] at hc
    refine pieces_cons ?_ (ih hb hc.1)
    rintro rfl ho
    rcases opens_append_iff.mp ho with ho | ⟨hblank, -⟩
    · exact hn rfl ho
    · exact hc.2 hblank ⟨[], [], by simp, rfl⟩

theorem groups_append_break {a s : Text} (ha : Solid a) (hs : ¬ Opens s) :
    groups (a ++ '\n' :: '\n' :: s) = trim a :: groups s := by
  rw [groups, pieces_append_break ha hs, List.map_cons, ← groups]

def chunks (cs : List Text) : Text := cs.flatMap (· ++ ['\n', '\n'])

theorem chunks_cons (c : Text) (cs : List Text) :
    chunks (c :: cs) = c ++ '\n' :: '\n' :: chunks cs := by simp [chunks]

theorem not_opens_chunks {cs : List Text} {last : Text} (hcs : ∀ c ∈ cs, Solid c ∧ ¬ AllBlank c)
    (hlast : ¬ Opens last) : ¬ Opens (chunks cs ++ last) := by
  cases cs with
  | nil => exact hlast
  | cons c cs =>
    obtain ⟨hc, hblank⟩ := hcs c (by simp)
    rw [chunks_cons, List.append_assoc, opens_append_iff]
    rintro (h | ⟨h, -⟩)
    · exact hc.not_opens h
    · exact hblank h

theorem groups_chunks {cs : List Text} {last : Text} (hcs : ∀ c ∈ cs, Solid c ∧ ¬ AllBlank c)
    (hlast : Solid last) : groups (chunks cs ++ last) = cs.map trim ++ [trim last] := by
  induction cs with
  | nil => simp [groups, chunks, breakFree_iff_pieces.mp hlast.breakFree]
  | cons c cs ih =>
    have hcs' : ∀ d ∈ cs, Solid d ∧ ¬ AllBlank d := fun d hd => hcs d (List.mem_cons_of_mem c hd)
    rw [chunks_cons, List.append_assoc, List.cons_append, List.cons_append,
      groups_append_break (hcs c (by simp)).1 (not_opens_chunks hcs' hlast.not_opens), ih hcs']
    rfl

theorem Pieces.line_append {a r p : Text} {ps : List Text} (ha : '\n' ∉ a)
    (h : Pieces r (p :: ps)) : Pieces (a ++ r) ((a ++ p) :: ps) := by
  induction a with
  | nil => exact h
  | cons c a ih =>
    simp only [List.mem_cons, not_or] at ha
    exact .char (fun h => absurd h.symm ha.1) (ih ha.2)

/-- The last piece of a text and the first piece of what follows are one piece, if no break begins
in the text and ends after it. -/
theorem Pieces.append {a y l q : Text} {ps qs : List Text}
    (hopens : ∀ r, '\n' :: r <:+ a → ¬ Opens r → ¬ Opens (r ++ y)) (h : Pieces a (ps ++ [l]))
    (hy : Pieces y (q :: qs)) : Pieces (a ++ y) (ps ++ (l ++ q) :: qs) := by
  generalize hx : ps ++ [l] = xs at h
  induction h generalizing ps l with
  | nil =>
    obtain ⟨rfl, rfl⟩ : ps = [] ∧ l = [] := by simpa [List.append_eq_cons_iff] using hx
    exact hy
  | @cut w s xs hw hs h ih =>
    obtain ⟨ps, rfl, rfl⟩ : ∃ ps', ps = [] :: ps' ∧ xs = ps' ++ [l] := by
      rcases List.append_eq_cons_iff.mp hx with ⟨rfl, hl⟩ | ⟨ps', rfl, rfl⟩
      · exact absurd (List.cons.inj hl).2.symm h.ne_nil
      · exact ⟨ps', rfl, rfl⟩
    have hsuffix : '\n' :: s <:+ '\n' :: (w ++ '\n' :: s) :=
      (List.suffix_append w ('\n' :: s)).trans (List.suffix_cons _ _)
    have htail : ∀ r, '\n' :: r <:+ s → ¬ Opens r → ¬ Opens (r ++ y) := fun r hr =>
      hopens r ((hr.trans (List.suffix_cons _ _)).trans hsuffix)
    simpa using Pieces.cut hw (hopens s hsuffix hs) (ih htail rfl)
  | @char c r p xs hc h ih =>
    have htail : ∀ x, '\n' :: x <:+ r → ¬ Opens x → ¬ Opens (x ++ y) := fun x hr =>
      hopens x (hr.trans (List.suffix_cons _ _))
    have hhead : c = '\n' → ¬ Opens (r ++ y) := by
      rintro rfl
      exact hopens r (List.suffix_refl _) (hc rfl)
    rcases List.append_eq_cons_iff.mp hx with ⟨rfl, hl⟩ | ⟨ps', rfl, rfl⟩
    · obtain ⟨rfl, rfl⟩ := List.cons.inj hl
      have hr : Pieces (r ++ y) ([] ++ (p ++ q) :: qs) := ih htail rfl
      exact .char hhead hr
    · have hr : Pieces (r ++ y) (p :: ps' ++ (l ++ q) :: qs) := ih htail rfl
      exact .char hhead hr

theorem Pieces.append_line {r b l : Text} {ps : List Text} (hb : '\n' ∉ b)
    (h : Pieces r (ps ++ [l])) : Pieces (r ++ b) (ps ++ [l ++ b]) := by
  have hline : Pieces b [b] := by simpa using Pieces.line_append hb .nil
  refine h.append (fun x _ hx => ?_) hline
  rw [opens_append_iff]
  rintro (ho | ⟨-, ho⟩)
  · exact hx ho
  · exact not_opens_of_line hb ho

theorem groups_blank_append {a r : Text} (ha : AllBlank a) (hn : '\n' ∉ a) :
    groups (a ++ r) = groups r := by
  obtain ⟨p, ps, hr⟩ := exists_pieces_cons r
  rw [(hr.line_append hn).groups_eq, hr.groups_eq]
  simp [trim_blank_append ha]

theorem groups_append_blank {r b : Text} (hb : AllBlank b) (hn : '\n' ∉ b) :
    groups (r ++ b) = groups r := by
  obtain ⟨ps, l, hr⟩ := exists_pieces_concat r
  rw [(hr.append_line hn).groups_eq, hr.groups_eq]
  simp [trim_append_blank hb]

/-- Trimming keeps the groups of a text that begins and ends within a group. -/
theorem groups_trim {t : Text} (hopens : ¬ Opens t) (hcloses : ¬ Closes t) :
    groups (trim t) = groups t := by
  obtain ⟨a, b, ha, hb, h⟩ := exists_trim t
  -- a newline among the trimmed characters would open or close the text
  have ha' : '\n' ∉ a := by
    intro hm
    obtain ⟨x, y, rfl⟩ := List.append_of_mem hm
    refine hopens ⟨x, y ++ trim t ++ b, fun c hc => ha c (by simp [hc]), ?_⟩
    simpa using h
  have hb' : '\n' ∉ b := by
    intro hm
    obtain ⟨x, y, rfl⟩ := List.append_of_mem hm
    refine hcloses ⟨a ++ trim t ++ x, y, fun c hc => hb c (by simp [hc]), ?_⟩
    simpa using h
  calc groups (trim t) = groups (a ++ trim t ++ b) := by
        rw [groups_append_blank hb hb', groups_blank_append ha ha']
    _ = groups t := by rw [← h]

end Bulletin.Card
