import Bulletin.Yaml.Value.Text
import Mathlib.Algebra.Ring.Nat
import Mathlib.Data.Finset.Card
import Mathlib.Data.Finset.Range

/-! Which values have a text. A value has none where an integer that is too long to be written
stands somewhere in it, however its collections refer to each other, or where writing it nests more
calls than there is room for. The error that is raised has its own cause in the value. With enough
room only the integers count. -/

namespace Bulletin.Yaml

def Collection.parts : Collection → List Value
  | .list items => items
  | .map _ entries => entries.flatMap fun e => [e.1, e.2]
  | .set members => members

/-- The scalar is an integer with more decimal digits than may be written. -/
def Scalar.IsLong : Scalar → Prop
  | .int n => 10 ^ Number.digitLimit ≤ n.natAbs
  | _ => False

inductive HasLong (s : Store) : Value → Prop
  | scalar {a : Scalar} (ha : a.IsLong) : HasLong s (.scalar a)
  | tuple {x xs} (hx : x ∈ xs) (h : HasLong s x) : HasLong s (.tuple xs)
  | ref {id c x} (hc : s[id]? = some c) (hx : x ∈ c.parts) (h : HasLong s x) : HasLong s (.ref id)

/-- A way down meets an integer that is too long, but no collection twice and none of those
around. -/
inductive Meets (s : Store) : List Nat → Value → Prop
  | scalar {around a} (ha : a.IsLong) : Meets s around (.scalar a)
  | tuple {around x xs} (hx : x ∈ xs) (h : Meets s around x) : Meets s around (.tuple xs)
  | ref {around id c x} (hc : s[id]? = some c) (hid : id ∉ around) (hx : x ∈ c.parts)
    (h : Meets s (id :: around) x) : Meets s around (.ref id)

/-- The call that writes the value inside the collections around has `n` calls nested in it on some
way down. -/
inductive Nests (s : Store) : List Nat → Value → Nat → Prop
  | none {around v} : Nests s around v 0
  | scalar {around a} : Nests s around (.scalar a) a.calls
  | tuple {around x xs n} (hx : x ∈ xs) (h : Nests s around x n) : Nests s around (.tuple xs) (n + 1)
  | ref {around id c x n} (hc : s[id]? = some c) (hid : id ∉ around) (hx : x ∈ c.parts)
    (h : Nests s (id :: around) x n) : Nests s around (.ref id) (c.toll + n + 1)

/-- A long integer stands some steps below a value, and no collection on the way to it is one of
those around. -/
inductive Leads (s : Store) (around : List Nat) : Nat → Value → Prop
  | scalar {a} (ha : a.IsLong) : Leads s around 0 (.scalar a)
  | tuple {n x xs} (hx : x ∈ xs) (h : Leads s around n x) : Leads s around (n + 1) (.tuple xs)
  | ref {n id c x} (hid : id ∉ around) (hc : s[id]? = some c) (hx : x ∈ c.parts)
    (h : Leads s around n x) : Leads s around (n + 1) (.ref id)

variable {s : Store} {around : List Nat} {toll room id n : Nat} {v x : Value} {c : Collection}
  {f : TextFault}

/-! ### Computations that fail for a cause -/

/-- The computation fails where there is a cause for it, with an error that has one. -/
structure Fails {α : Type} (x : Except TextFault α) (P : TextFault → Prop) : Prop where
  cause : ∀ f, x = .error f → P f
  error : ∀ f, P f → ∃ f', x = .error f'

namespace Fails

variable {α β : Type} {P Q : TextFault → Prop} {x : Except TextFault α}

theorem congr (h : Fails x P) (hPQ : ∀ f, P f ↔ Q f) : Fails x Q where
  cause f hf := (hPQ f).mp (h.cause f hf)
  error f hf := h.error f ((hPQ f).mpr hf)

theorem pure (a : α) : Fails (Pure.pure a) fun _ => False where
  cause f hf := by cases hf
  error f hf := hf.elim

theorem throw (h : P f) : Fails (throw f : Except TextFault α) P where
  cause f' hf := by cases hf; exact h
  error _ _ := ⟨f, rfl⟩

theorem bind {g : α → Except TextFault β} (hx : Fails x P) (hg : ∀ a, Fails (g a) Q) :
    Fails (x >>= g) fun f => P f ∨ Q f := by
  cases x with
  | error f =>
    exact ⟨fun f' hf => by cases hf; exact .inl (hx.cause f rfl), fun _ _ => ⟨f, rfl⟩⟩
  | ok a =>
    refine ⟨fun f hf => .inr ((hg a).cause f hf), fun f hf => ?_⟩
    rcases hf with hf | hf
    · obtain ⟨f', hf'⟩ := hx.error f hf
      cases hf'
    · exact (hg a).error f hf

theorem map (hx : Fails x P) (g : α → β) : Fails (x >>= fun a => Pure.pure (g a)) P :=
  (hx.bind fun a => pure (g a)).congr (by simp)

theorem mapM {P : α → TextFault → Prop} {g : α → Except TextFault β}
    (hg : ∀ a, Fails (g a) (P a)) (xs : List α) :
    Fails (xs.mapM g) fun f => ∃ x ∈ xs, P x f := by
  induction xs with
  | nil => exact (pure []).congr (by simp)
  | cons x xs ih =>
    rw [List.mapM_cons]
    exact ((hg x).bind fun y => ih.map (y :: ·)).congr (by simp)

end Fails

theorem exists_part_map_iff {P : Value → Prop} (ordered : Bool) (es : List (Value × Value)) :
    (∃ x ∈ (Collection.map ordered es).parts, P x) ↔ ∃ e ∈ es, P e.1 ∨ P e.2 := by
  simp only [Collection.parts, List.mem_flatMap, List.mem_cons, List.not_mem_nil, or_false]
  constructor
  · rintro ⟨x, ⟨e, he, rfl | rfl⟩, hx⟩
    · exact ⟨e, he, .inl hx⟩
    · exact ⟨e, he, .inr hx⟩
  · rintro ⟨e, he, hx | hx⟩
    · exact ⟨e.1, ⟨e, he, .inl rfl⟩, hx⟩
    · exact ⟨e.2, ⟨e, he, .inr rfl⟩, hx⟩

theorem Collection.fails_textBy {P : Value → TextFault → Prop} {part : Value → Except TextFault Text}
    (hpart : ∀ x, Fails (part x) (P x)) (c : Collection) :
    Fails (c.textBy part) fun f => ∃ x ∈ c.parts, P x f := by
  have hentries (g : Text → Text → Text) (es : List (Value × Value)) :
      Fails (es.mapM fun e => do return g (← part e.1) (← part e.2))
        fun f => ∃ e ∈ es, P e.1 f ∨ P e.2 f :=
    .mapM (fun e => (hpart e.1).bind fun k => (hpart e.2).map (g k)) es
  cases c with
  | list items => exact (Fails.mapM hpart items).map _
  | map ordered es =>
    refine Fails.congr ?_ fun f => (exists_part_map_iff ordered es).symm
    cases ordered with
    | false => exact (hentries _ es).map _
    | true => exact (hentries (fun k v => tupleText [k, v]) es).map _
  | set members => exact (Fails.mapM hpart members).map _

/-! ### Scalars -/

theorem integerText?_eq_none_iff {n : Int} :
    Number.integerText? n = none ↔ (Scalar.int n).IsLong := by
  have hlength := Nat.length_toDigits_le_iff (b := 10) (n := n.natAbs) (by decide)
    (show 0 < Number.digitLimit by decide)
  rw [Scalar.IsLong, ← not_lt, ← hlength, not_le, Number.integerText?]
  split <;> simp_all [Number.decimal]

theorem fails_plainScalar (standIn : Nat → Char) (a : Scalar) :
    Fails (plainScalar standIn a) fun f => f = .tooLong ∧ a.IsLong := by
  cases a with
  | int n =>
    rw [plainScalar]
    cases hn : Number.integerText? n with
    | none => exact .throw ⟨rfl, integerText?_eq_none_iff.mp hn⟩
    | some t =>
      refine (Fails.pure t).congr fun f => iff_of_false not_false fun h => ?_
      simp [integerText?_eq_none_iff.mpr h.2] at hn
  | null | bool | float | text | unpaired | bytes | date | time =>
    exact (Fails.pure _).congr (by simp [Scalar.IsLong])

theorem text_eq_tooLong {how : Writer} {n : Int} (h : (Scalar.int n).IsLong) :
    s.text how (.scalar (.int n)) = .error .tooLong := by
  rw [Store.text, plainScalar, integerText?_eq_none_iff.mpr h]
  rfl

theorem fails_nestedScalar (standIn : Nat → Char) (a : Scalar) :
    Fails (nestedScalar standIn a) fun f => f = .tooLong ∧ a.IsLong := by
  cases a with
  | text | unpaired | date | time => exact (Fails.pure _).congr (by simp [Scalar.IsLong])
  | null | bool | int | float | bytes =>
    rw [nestedScalar]
    · exact fails_plainScalar _ _
    all_goals nofun

/-! ### Values inside collections -/

/-- Why the call that writes a value fails, where `toll` calls come before it in the given room. -/
def Cause (s : Store) (around : List Nat) (toll : Nat) (v : Value) (room : Nat) : TextFault → Prop
  | .tooLong => Meets s around v
  | .tooDeep => ∃ n, Nests s around v n ∧ room ≤ toll + n

theorem cause_toll_iff : Cause s around toll v room f ↔ Cause s around (toll + 1) v (room + 1) f := by
  cases f with
  | tooLong => rfl
  | tooDeep =>
    exact exists_congr fun n => and_congr_right fun _ => by omega

theorem cause_scalar_iff {a : Scalar} :
    Cause s around 0 (.scalar a) (room + 1) f ↔
      (f = .tooDeep ∧ room < a.calls) ∨ (f = .tooLong ∧ a.IsLong) := by
  cases f with
  | tooLong => simpa [Cause] using ⟨fun h => by cases h; assumption, Meets.scalar⟩
  | tooDeep =>
    simp only [Cause, true_and, reduceCtorEq, false_and, or_false]
    constructor
    · rintro ⟨n, hn, hroom⟩
      cases hn <;> omega
    · exact fun h => ⟨a.calls, .scalar, by omega⟩

theorem cause_tuple_iff {xs : List Value} :
    Cause s around 0 (.tuple xs) (room + 1) f ↔ ∃ x ∈ xs, Cause s around 0 x room f := by
  cases f with
  | tooLong =>
    exact ⟨fun h => by cases h with | tuple hx h => exact ⟨_, hx, h⟩, fun ⟨_, hx, h⟩ => .tuple hx h⟩
  | tooDeep =>
    constructor
    · rintro ⟨n, hn, hroom⟩
      cases hn with
      | none => omega
      | @tuple _ x _ n hx h => exact ⟨x, hx, n, h, by omega⟩
    · rintro ⟨x, hx, n, h, hroom⟩
      exact ⟨n + 1, .tuple hx h, by omega⟩

theorem cause_ref_iff (hc : s[id]? = some c) (hid : id ∉ around) :
    Cause s around 0 (.ref id) (room + 1) f ↔
      ∃ x ∈ c.parts, Cause s (id :: around) c.toll x room f := by
  cases f with
  | tooLong =>
    refine ⟨fun h => ?_, fun ⟨_, hx, h⟩ => .ref hc hid hx h⟩
    cases h with
    | ref hc' _ hx h =>
      obtain rfl := Option.some.inj (hc.symm.trans hc')
      exact ⟨_, hx, h⟩
  | tooDeep =>
    constructor
    · rintro ⟨n, hn, hroom⟩
      cases hn with
      | none => omega
      | @ref _ _ c' x n hc' _ hx h =>
        obtain rfl := Option.some.inj (hc.symm.trans hc')
        exact ⟨x, hx, n, h, by omega⟩
    · rintro ⟨x, hx, n, h, hroom⟩
      exact ⟨c.toll + n + 1, .ref hc hid hx h, by omega⟩

theorem not_cause_ref (h : s[id]? = none ∨ id ∈ around) :
    ¬Cause s around 0 (.ref id) (room + 1) f := by
  intro hf
  cases f with
  | tooLong => cases hf; simp_all
  | tooDeep =>
    obtain ⟨n, hn, hroom⟩ := hf
    cases hn with
    | none => omega
    | ref hc hid => simp_all

/-- The text of a value inside a collection fails for its causes. The induction is on the room,
which every call uses up. -/
theorem fails_nested (s : Store) (standIn : Nat → Char) (around : List Nat) (toll : Nat) (v : Value)
    (room : Nat) : Fails (nested s standIn around toll v room) (Cause s around toll v room) := by
  induction room generalizing around toll v with
  | zero => exact .throw ⟨0, .none, Nat.zero_le _⟩
  | succ room ih =>
    cases toll with
    | succ toll =>
      rw [nested]
      exact (ih around toll v).congr fun f => cause_toll_iff
    | zero =>
      cases v with
      | scalar a =>
        rw [nested]
        refine Fails.congr ?_ fun f => cause_scalar_iff.symm
        split
        case isTrue h => exact .throw (.inl ⟨rfl, h⟩)
        case isFalse h => exact (fails_nestedScalar standIn a).congr (by simp [h])
      | tuple xs =>
        rw [nested]
        exact ((Fails.mapM (fun x => ih around 0 x) xs).map tupleText).congr
          fun f => cause_tuple_iff.symm
      | ref id =>
        rw [nested]
        cases hc : s[id]? with
        | none =>
          exact (Fails.pure []).congr fun f => iff_of_false not_false (not_cause_ref (.inl hc))
        | some c =>
          by_cases hid : id ∈ around
          · simp only [if_pos hid]
            exact (Fails.pure _).congr fun f => iff_of_false not_false (not_cause_ref (.inr hid))
          · simp only [if_neg hid]
            exact (c.fails_textBy fun x => ih (id :: around) c.toll x).congr
              fun f => (cause_ref_iff hc hid).symm

/-! ### The way down to an integer -/

theorem HasLong.exists_leads (h : HasLong s v) : ∃ n, Leads s [] n v := by
  induction h with
  | scalar ha => exact ⟨0, .scalar ha⟩
  | tuple hx _ ih =>
    obtain ⟨n, hn⟩ := ih
    exact ⟨n + 1, .tuple hx hn⟩
  | ref hc hx _ ih =>
    obtain ⟨n, hn⟩ := ih
    exact ⟨n + 1, .ref List.not_mem_nil hc hx hn⟩

/-- A way down avoids one more collection, or a shorter way starts at that collection. -/
theorem Leads.avoid (h : Leads s around n v) (id : Nat) :
    Leads s (id :: around) n v ∨ ∃ m ≤ n, Leads s around m (.ref id) := by
  induction h with
  | scalar ha => exact .inl (.scalar ha)
  | tuple hx _ ih =>
    rcases ih with h | ⟨m, hm, h⟩
    · exact .inl (.tuple hx h)
    · exact .inr ⟨m, by omega, h⟩
  | @ref k other c x hother hc hx h ih =>
    by_cases heq : other = id
    · subst heq
      exact .inr ⟨k + 1, le_rfl, .ref hother hc hx h⟩
    · rcases ih with h | ⟨m, hm, h⟩
      · exact .inl (.ref (by simp [heq, hother]) hc hx h)
      · exact .inr ⟨m, by omega, h⟩

/-- The integer at the end of a way down is met. The induction is on the length of the way: where it
comes back to a collection, the rest of it from there on is shorter. -/
theorem Leads.meets (h : Leads s around n v) : Meets s around v := by
  induction n using Nat.strong_induction_on generalizing around v with
  | _ n ih =>
    cases h with
    | scalar ha => exact .scalar ha
    | @tuple n x xs hx h => exact .tuple hx (ih n (Nat.lt_succ_self n) h)
    | @ref n id c x hid hc hx h =>
      rcases h.avoid id with h | ⟨m, hm, h⟩
      · exact .ref hc hid hx (ih n (Nat.lt_succ_self n) h)
      · exact ih m (by omega) h

theorem Meets.hasLong (h : Meets s around v) : HasLong s v := by
  induction h with
  | scalar ha => exact .scalar ha
  | tuple hx _ ih => exact .tuple hx ih
  | ref hc _ hx _ ih => exact .ref hc hx ih

theorem meets_nil_iff : Meets s [] v ↔ HasLong s v := by
  refine ⟨Meets.hasLong, fun h => ?_⟩
  obtain ⟨n, hn⟩ := h.exists_leads
  exact hn.meets

/-! ### Enough room -/

def remaining (s : Store) (around : List Nat) : Nat :=
  ((Finset.range s.size).filter (· ∉ around)).card

theorem remaining_cons_lt (hc : s[id]? = some c) (hid : id ∉ around) :
    remaining s (id :: around) < remaining s around := by
  have hsize : id < s.size := (Array.getElem?_eq_some_iff.mp hc).1
  refine Finset.card_lt_card (Finset.ssubset_iff_of_subset ?_ |>.mpr ⟨id, ?_, ?_⟩)
  · intro i hi
    simp_all
  · simp [hsize, hid]
  · simp

theorem exists_bound_of_forall {P : Value → Nat → Prop} {xs : List Value}
    (h : ∀ x ∈ xs, ∃ k, ∀ n, P x n → n ≤ k) : ∃ k, ∀ x ∈ xs, ∀ n, P x n → n ≤ k := by
  induction xs with
  | nil => exact ⟨0, by simp⟩
  | cons x xs ih =>
    obtain ⟨k, hk⟩ := h x List.mem_cons_self
    obtain ⟨l, hl⟩ := ih fun y hy => h y (List.mem_cons_of_mem x hy)
    refine ⟨max k l, fun y hy n hn => ?_⟩
    rcases List.mem_cons.mp hy with rfl | hy
    · exact (hk n hn).trans (Nat.le_max_left k l)
    · exact (hl y hy n hn).trans (Nat.le_max_right k l)

/-- However collections refer to each other, only so many calls are nested: on the way down there
are fewer and fewer collections left, and between two of them the tuples get smaller. -/
theorem exists_nests_le (s : Store) (around : List Nat) (v : Value) :
    ∃ k, ∀ n, Nests s around v n → n ≤ k := by
  match v with
  | .scalar a =>
    refine ⟨a.calls, fun n hn => ?_⟩
    cases hn with
    | none => exact Nat.zero_le _
    | scalar => exact le_rfl
  | .tuple xs =>
    obtain ⟨k, hk⟩ := exists_bound_of_forall fun x (_ : x ∈ xs) => exists_nests_le s around x
    refine ⟨k + 1, fun n hn => ?_⟩
    cases hn with
    | none => exact Nat.zero_le _
    | tuple hx h => exact Nat.succ_le_succ (hk _ hx _ h)
  | .ref id =>
    by_cases hid : ∃ c, s[id]? = some c ∧ id ∉ around
    case neg =>
      refine ⟨0, fun n hn => ?_⟩
      cases hn with
      | none => exact le_rfl
      | ref hc hid' => exact absurd ⟨_, hc, hid'⟩ hid
    obtain ⟨c, hc, hid⟩ := hid
    have hless := remaining_cons_lt hc hid
    obtain ⟨k, hk⟩ :=
      exists_bound_of_forall fun x (_ : x ∈ c.parts) => exists_nests_le s (id :: around) x
    refine ⟨c.toll + k + 1, fun n hn => ?_⟩
    cases hn with
    | none => exact Nat.zero_le _
    | ref hc' _ hx h =>
      obtain rfl := Option.some.inj (hc.symm.trans hc')
      have := hk _ hx _ h
      omega
termination_by (remaining s around, sizeOf v)

/-! ### Whole values -/

/-- Why a value has no text. A scalar on its own is written by a single call. -/
def NoText (s : Store) (room : Nat) (v : Value) : TextFault → Prop
  | .tooLong => HasLong s v
  | .tooDeep => (∀ a, v ≠ .scalar a) ∧ ∃ n, Nests s [] v n ∧ room < n

/-- A value has no text where there is a reason for it, and the error names one. -/
theorem fails_text (s : Store) (how : Writer) (v : Value) :
    Fails (s.text how v) (NoText s how.room v) := by
  have hnested (hv : ∀ a, v ≠ .scalar a) (f : TextFault) :
      Cause s [] 0 v (how.room + 1) f ↔ NoText s how.room v f := by
    cases f with
    | tooLong => exact meets_nil_iff
    | tooDeep =>
      have hless (n : Nat) : how.room + 1 ≤ 0 + n ↔ how.room < n := by omega
      simp only [Cause, NoText, hless, ne_eq, hv, not_false_eq_true, implies_true, true_and]
  cases v with
  | scalar a =>
    refine (fails_plainScalar how.standIn a).congr fun f => ?_
    cases f with
    | tooLong => simpa [NoText] using ⟨.scalar, fun h => by cases h; assumption⟩
    | tooDeep => simp [NoText]
  | ref id => exact (fails_nested s how.standIn [] 0 _ _).congr (hnested nofun)
  | tuple xs => exact (fails_nested s how.standIn [] 0 _ _).congr (hnested nofun)

/-- With enough room a value has no text exactly where a long integer stands in it. -/
theorem exists_room (s : Store) (v : Value) :
    ∃ k, ∀ how : Writer, k ≤ how.room →
      ∀ f, s.text how v = .error f ↔ f = .tooLong ∧ HasLong s v := by
  obtain ⟨k, hk⟩ := exists_nests_le s [] v
  refine ⟨k, fun how hroom f => ⟨fun hf => ?_, ?_⟩⟩
  · have hcause := (fails_text s how v).cause f hf
    cases f with
    | tooLong => exact ⟨rfl, hcause⟩
    | tooDeep =>
      obtain ⟨-, n, hn, hless⟩ := hcause
      have := hk n hn
      omega
  · rintro ⟨rfl, hlong⟩
    obtain ⟨f, hf⟩ := (fails_text s how v).error .tooLong hlong
    have hcause := (fails_text s how v).cause f hf
    cases f with
    | tooLong => exact hf
    | tooDeep =>
      obtain ⟨-, n, hn, hless⟩ := hcause
      have := hk n hn
      omega

end Bulletin.Yaml
