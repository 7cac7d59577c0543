import Bulletin.Proofs.Card.Chunk
import Mathlib.Data.List.SplitBy

/-! Groups by runs. A text is a list of maximal runs, of blank characters and of other characters in
turn, and its groups are what stands between the blank runs with at least two newlines. So nothing
else cuts a text, only the first and the last group can be empty, and texts that are joined by empty
lines are cut into the same texts again. -/

namespace Bulletin.Card
open Text

/-- The maximal runs of blank characters and of other characters. -/
def runs (t : Text) : List Text := t.splitBy fun a b => isBlank a == isBlank b

/-- A run that sets groups apart: blank characters with at least two newlines among them. -/
def IsBreak (run : Text) : Prop := AllBlank run ∧ 2 ≤ run.count '\n'

instance (run : Text) : Decidable (IsBreak run) :=
  inferInstanceAs (Decidable (AllBlank run ∧ 2 ≤ run.count '\n'))

def betweenBreaks (t : Text) : List Text :=
  ((runs t).splitOnP fun run => decide (IsBreak run)).map List.flatten

/-! ### Runs -/

theorem blank_of_isChain {r : Text} (hr : r.IsChain fun a b => (isBlank a == isBlank b) = true) :
    AllBlank r ∨ ∀ c ∈ r, isBlank c = false := by
  induction r with
  | nil => simp
  | cons a r ih =>
    cases r with
    | nil => cases h : isBlank a <;> simp [h]
    | cons b r =>
      obtain ⟨hab, hr⟩ := List.isChain_cons_cons.mp hr
      have hab : isBlank a = isBlank b := by simpa using hab
      rcases ih hr with h | h
      · left
        simp_all
      · right
        simp_all

/-- The first run of a text, and the runs of the rest. A blank run ends the text, or a character
that is not blank follows it. -/
theorem runs_cons {t r : Text} {rs : List Text} (h : runs t = r :: rs) :
    t = r ++ rs.flatten ∧ runs rs.flatten = rs ∧
      ((AllBlank r ∧ ¬ Opens rs.flatten) ∨ '\n' ∉ r) := by
  obtain ⟨ht, hne, hchain, hnext⟩ := List.splitBy_eq_iff.mp h
  simp only [List.mem_cons, not_or] at hne
  refine ⟨by simpa using ht, List.splitBy_eq_iff.mpr ⟨rfl, hne.2, fun x hx => hchain x (by simp [hx]),
    hnext.tail⟩, ?_⟩
  rcases blank_of_isChain (hchain r (by simp)) with hblank | hblank
  · refine Or.inl ⟨hblank, ?_⟩
    cases rs with
    | nil => simp
    | cons s rs =>
      obtain ⟨⟨hr, hs, hrel⟩, -⟩ := List.isChain_cons_cons.mp hnext
      obtain ⟨c, s, rfl⟩ := List.exists_cons_of_ne_nil hs
      have hc : isBlank c = false := by
        have hlast := hblank _ (List.getLast_mem hr)
        simpa [hlast] using hrel
      rw [List.flatten_cons, List.cons_append]
      exact not_opens_cons hc
  · refine Or.inr fun hm => ?_
    simpa using hblank _ hm

theorem IsBreak.exists_break {r : Text} (h : IsBreak r) : ∃ a w b, r = a ++ '\n' :: (w ++ '\n' :: b) ∧
    AllBlank a ∧ '\n' ∉ a ∧ AllBlank w ∧ AllBlank b ∧ '\n' ∉ b := by
  obtain ⟨hblank, hcount⟩ := h
  have hr : '\n' ∈ r := List.count_pos_iff.mp (by omega)
  obtain ⟨a, x, rfl, ha⟩ := List.eq_append_cons_of_mem hr
  simp only [allBlank_append, allBlank_cons] at hblank
  have hx : '\n' ∈ x := by
    refine List.count_pos_iff.mp ?_
    simp only [List.count_append, List.count_eq_zero_of_not_mem ha, List.count_cons_self] at hcount
    omega
  obtain ⟨y, z, rfl, -⟩ := List.eq_append_cons_of_mem hx
  simp only [allBlank_append, allBlank_cons] at hblank
  obtain ⟨w, b, hw, hb, hlast⟩ := exists_last_newline ⟨y, z, hblank.2.2.1, rfl⟩
  have hbblank : AllBlank b := by
    have hall : AllBlank (w ++ '\n' :: b) := hb ▸ by simp [hblank]
    simp only [allBlank_append, allBlank_cons] at hall
    exact hall.2.2
  refine ⟨a, w, b, by rw [hb], hblank.1, ha, hw, hbblank, fun hm => ?_⟩
  obtain ⟨u, v, rfl⟩ := List.append_of_mem hm
  exact hlast ⟨u, v, fun c hc => hbblank c (by simp [hc]), rfl⟩

/-- A run that sets groups apart ends the first piece; it leaves only blank characters on its two
sides. -/
theorem Pieces.break_append {r rest p : Text} {ps : List Text} (hr : IsBreak r)
    (hrest : ¬ Opens rest) (h : Pieces rest (p :: ps)) :
    ∃ a b, AllBlank a ∧ AllBlank b ∧ Pieces (r ++ rest) (a :: (b ++ p) :: ps) := by
  obtain ⟨a, w, b, rfl, ha, hna, hw, hb, hnb⟩ := hr.exists_break
  have hopens : ¬ Opens (b ++ rest) := by
    rw [opens_append_iff]
    rintro (ho | ⟨-, ho⟩)
    · exact not_opens_of_line hnb ho
    · exact hrest ho
  have hcut := (Pieces.cut hw hopens (h.line_append hnb)).line_append hna
  refine ⟨a, b, ha, hb, ?_⟩
  simpa using hcut

theorem Pieces.run_append {r rest p : Text} {ps : List Text} (hr : ¬ IsBreak r)
    (hrest : (AllBlank r ∧ ¬ Opens rest) ∨ '\n' ∉ r) (h : Pieces rest (p :: ps)) :
    Pieces (r ++ rest) ((r ++ p) :: ps) := by
  by_cases hn : '\n' ∈ r
  · obtain ⟨hblank, hopens⟩ := hrest.resolve_right (fun hno => hno hn)
    obtain ⟨a, b, rfl, ha⟩ := List.eq_append_cons_of_mem hn
    -- one newline only, so no newline follows it within the run
    have hb : '\n' ∉ b := by
      intro hm
      have hpos := List.count_pos_iff.mpr hm
      refine hr ⟨hblank, ?_⟩
      simp only [List.count_append, List.count_cons_self]
      omega
    have hchar : Pieces ('\n' :: (b ++ rest)) (('\n' :: (b ++ p)) :: ps) := by
      refine .char (fun _ ho => ?_) (h.line_append hb)
      rcases opens_append_iff.mp ho with ho | ⟨-, ho⟩
      · exact not_opens_of_line hb ho
      · exact hopens ho
    simpa using hchar.line_append ha
  · exact h.line_append hn

/-- The pieces of a text are what stands between its breaks, up to blank characters that belong to
the runs around them. -/
theorem exists_pieces_of_runs {t : Text} {rs : List Text} (h : runs t = rs) :
    ∃ p ps q qs, Pieces t (p :: ps) ∧
      (rs.splitOnP fun run => decide (IsBreak run)) = q :: qs ∧
      (∃ b, AllBlank b ∧ p = q.flatten ++ b) ∧
      ps.map trim = qs.map fun q => trim q.flatten := by
  induction rs generalizing t with
  | nil =>
    obtain rfl : t = [] := List.splitBy_eq_nil.mp h
    exact ⟨[], [], [], [], .nil, rfl, ⟨[], by simp, rfl⟩, rfl⟩
  | cons r rs ih =>
    obtain ⟨rfl, hrs, hr⟩ := runs_cons h
    obtain ⟨p, ps, q, qs, hpieces, hsplit, ⟨b, hb, hp⟩, htail⟩ := ih hrs
    rw [List.splitOnP_cons_eq_if_modifyHead, hsplit]
    by_cases hbreak : IsBreak r
    · have hopens : ¬ Opens rs.flatten := by
        refine (hr.resolve_right fun hn => ?_).2
        have hzero := List.count_eq_zero_of_not_mem hn
        have htwo := hbreak.2
        omega
      obtain ⟨x, y, hx, hy, hcut⟩ := hpieces.break_append hbreak hopens
      refine ⟨x, (y ++ p) :: ps, [], q :: qs, hcut, by simp [hbreak], ⟨x, hx, rfl⟩, ?_⟩
      rw [List.map_cons, List.map_cons, trim_blank_append hy, hp, trim_append_blank hb, htail]
    · refine ⟨r ++ p, ps, r :: q, qs, hpieces.run_append hbreak hr, by simp [hbreak],
        ⟨b, hb, ?_⟩, htail⟩
      rw [hp, List.flatten_cons, List.append_assoc]

theorem groups_eq_betweenBreaks (t : Text) : groups t = (betweenBreaks t).map trim := by
  obtain ⟨p, ps, q, qs, hpieces, hsplit, ⟨b, hb, hp⟩, htail⟩ := exists_pieces_of_runs (t := t) rfl
  have hhead : trim p = trim q.flatten := by rw [hp, trim_append_blank hb]
  rw [hpieces.groups_eq, betweenBreaks, hsplit]
  simp [hhead, htail]

theorem length_splitOnP {α : Type} (p : α → Bool) (xs : List α) :
    (xs.splitOnP p).length = 1 + xs.countP p := by
  induction xs with
  | nil => rfl
  | cons x xs ih =>
    rw [List.splitOnP_cons_eq_if_modifyHead, List.countP_cons]
    by_cases h : p x = true
    · simp [h, ih]
      omega
    · simp [h, ih]

theorem length_groups (t : Text) :
    (groups t).length = 1 + (runs t).countP fun run => decide (IsBreak run) := by
  rw [groups_eq_betweenBreaks, List.length_map, betweenBreaks, List.length_map, length_splitOnP]

/-! ### Empty groups -/

theorem Pieces.opens {t p q : Text} {ps : List Text} (h : Pieces t (p :: q :: ps))
    (hp : AllBlank p) : Opens t := by
  generalize hps : p :: q :: ps = qs at h
  induction h generalizing p with
  | nil => simp at hps
  | cut => exact opens_newline _
  | @char c r _ _ _ _ ih =>
    obtain ⟨rfl, rfl⟩ := List.cons.inj hps
    rw [allBlank_cons] at hp
    exact opens_append_iff (a := [c]).mpr (Or.inr ⟨by simp [hp.1], ih hp.2 rfl⟩)

theorem Pieces.not_blank {t : Text} {ps : List Text} (h : Pieces t ps) :
    ∀ p ∈ ps.tail.dropLast, ¬ AllBlank p := by
  induction h with
  | nil => simp
  | @cut w s ps _ hs h ih =>
    obtain ⟨p, ps, rfl⟩ := List.exists_cons_of_ne_nil h.ne_nil
    cases ps with
    | nil => simp
    | cons q ps =>
      intro x hx
      rw [List.tail_cons, List.dropLast_cons_cons, List.mem_cons] at hx
      rcases hx with rfl | hx
      · exact fun hblank => hs (h.opens hblank)
      · exact ih x hx
  | char _ _ ih => exact ih

theorem ne_nil_of_mem_inner_groups {t g : Text} (h : g ∈ (groups t).tail.dropLast) : g ≠ [] := by
  rw [groups, ← List.map_tail, ← List.map_dropLast] at h
  obtain ⟨p, hp, rfl⟩ := List.mem_map.mp h
  exact fun hnil => (pieces_spec t).not_blank p hp (trim_eq_nil_iff.mp hnil)

/-! ### Joined texts -/

def joined (gs : List Text) : Text := ['\n', '\n'].intercalate gs

theorem joined_concat (gs : List Text) (g : Text) : joined (gs ++ [g]) = chunks gs ++ g := by
  induction gs with
  | nil => simp [joined, chunks]
  | cons a gs ih =>
    obtain ⟨b, bs, hb⟩ := List.exists_cons_of_ne_nil (l := gs ++ [g]) (by simp)
    rw [joined, hb] at ih
    rw [joined, List.cons_append, hb, List.intercalate_cons_cons, ih, chunks_cons]
    simp

/-- Texts without breaks that are joined are cut into the same texts again. The first and the last
may be empty. -/
theorem groups_joined {gs : List Text} (hne : gs ≠ []) (hgs : ∀ g ∈ gs, Trimmed g ∧ BreakFree g)
    (hinner : ∀ g ∈ gs.tail.dropLast, g ≠ []) : groups (joined gs) = gs := by
  obtain ⟨g, gs, rfl⟩ := List.exists_cons_of_ne_nil hne
  have htrim : ∀ x ∈ g :: gs, trim x = x := fun x hx => (hgs x hx).1.trim_eq
  have hsolid : ∀ x ∈ g :: gs, Solid x := fun x hx => solid_of_trimmed (hgs x hx).1 (hgs x hx).2
  rcases List.eq_nil_or_concat gs with rfl | ⟨cs, last, rfl⟩
  · have hone : pieces 0 g = [g] := breakFree_iff_pieces.mp (hgs g (by simp)).2
    simp [joined, groups, hone, htrim g (by simp)]
  · rw [List.concat_eq_append] at hinner htrim hsolid ⊢
    have hcs : ∀ c ∈ cs, Solid c ∧ ¬ AllBlank c := by
      intro c hc
      refine ⟨hsolid c (by simp [hc]), fun hblank => ?_⟩
      have hnil : c = [] := by rw [← htrim c (by simp [hc]), trim_eq_nil_iff.mpr hblank]
      exact hinner c (by simpa using hc) hnil
    have hlast : Solid last := hsolid last (by simp)
    have htail : cs.map trim = cs := by
      refine List.map_congr_left (fun c hc => htrim c (by simp [hc])) |>.trans ?_
      exact List.map_id' cs
    rw [← List.cons_append, joined_concat, chunks_cons, List.append_assoc, List.cons_append,
      List.cons_append, groups_append_break (hsolid g (by simp))
        (not_opens_chunks hcs hlast.not_opens), groups_chunks hcs hlast, htail,
      htrim g (by simp), htrim last (by simp)]
    rfl

/-- The groups of a text are the trimmed texts between its maximal blank runs with at least two
newlines, one more than there are such runs; none but the first and the last is empty, and none
holds a break. Joining with empty lines and cutting into groups undo each other: trimmed texts
without breaks, of which only the first and the last may be empty, are the groups of the joined
text. -/
theorem groups_between_runs :
    (∀ t : Text, groups t = (betweenBreaks t).map trim ∧
      (groups t).length = 1 + (runs t).countP (fun run => decide (IsBreak run)) ∧
      (∀ g ∈ (groups t).tail.dropLast, g ≠ []) ∧ ∀ g ∈ groups t, BreakFree g) ∧
    (∀ gs : List Text, gs ≠ [] → (∀ g ∈ gs, Trimmed g ∧ BreakFree g) →
      (∀ g ∈ gs.tail.dropLast, g ≠ []) → groups (joined gs) = gs) ∧
    ∀ t : Text, groups (joined (groups t)) = groups t := by
  refine ⟨fun t => ⟨groups_eq_betweenBreaks t, length_groups t,
    fun g hg => ne_nil_of_mem_inner_groups hg, fun g hg => breakFree_of_mem_groups hg⟩,
    fun gs hne hgs hinner => groups_joined hne hgs hinner, fun t => ?_⟩
  exact groups_joined (groups_ne_nil t)
    (fun g hg => ⟨trimmed_of_mem_groups hg, breakFree_of_mem_groups hg⟩)
    (fun g hg => ne_nil_of_mem_inner_groups hg)

/-- A text that begins and ends with a break, and whose breaks mix blank characters. -/
theorem groups_between_runs_mixed :
    let t : Text := "\n\t\n a\n b \u2003\n\u00a0\n\r\n c\n\n"
    let gs : List Text := [[], "a\n b", "c", []]
    betweenBreaks t = [[], "a\n b", "c", []] ∧ groups t = gs ∧ gs ≠ [] ∧
      (∀ g ∈ gs, Trimmed g ∧ BreakFree g) ∧ (∀ g ∈ gs.tail.dropLast, g ≠ []) ∧
      groups (joined gs) = gs ∧ "b".toList ∈ (groups "a\n\nb\n\nc").tail.dropLast ∧
      "b".toList ≠ [] := by
  intro t gs
  obtain ⟨hcut, hjoin, -⟩ := groups_between_runs
  have hbetween : betweenBreaks t = [[], "a\n b", "c", []] := by decide
  have hgroups : groups t = gs := by rw [(hcut t).1, hbetween]; decide
  have hne : gs ≠ [] := by decide
  have hclean : ∀ g ∈ gs, Trimmed g ∧ BreakFree g := by decide
  have hinner : ∀ g ∈ gs.tail.dropLast, g ≠ [] := by decide
  have hmem : "b".toList ∈ (groups "a\n\nb\n\nc").tail.dropLast := by decide
  exact ⟨hbetween, hgroups, hne, hclean, hinner, hjoin gs hne hclean hinner, hmem,
    (hcut _).2.2.1 _ hmem⟩

end Bulletin.Card
