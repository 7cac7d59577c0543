import Bulletin.Proofs.Command.Arguments
import Bulletin.Proofs.Text.Trim
import Mathlib.Data.List.Infix

/-! What a list of arguments gives. An option gives its input a value in one of two spellings: in
one argument with an equals sign, or in two of which the second is not taken for an option. A list
that is understood consists of such spellings and of operands in one way only, so that what it gives
can be told from the spellings in it; and one spelling may stand in the place of another as long as
the input it gives is not given elsewhere. -/

namespace Bulletin.Arguments

def option (name : Text) : Text := ['-', '-'] ++ name

/-- The arguments give the input the value, as one option. -/
inductive Spells (name value : Text) : List Text → Prop
  | assigned : Spells name value [assign name value]
  | spaced (h : looksLikeOption value = false) : Spells name value [option name, value]

def Inputs.Plain (i : Inputs) : Prop := ∀ name ∈ i.operands ++ i.options, '=' ∉ name

/-- Arguments read one after the other, each as an operand or as an option that gives an input which
has no value yet: what is given before, the arguments, what is given after them, the operands. -/
inductive Reads (i : Inputs) : Bound → List Text → Bound → List Text → Prop
  | nil {b} : Reads i b [] b []
  | given {b name value x rest b' operands} (hname : name ∈ i.operands ++ i.options)
    (hfree : b.lookup name = none) (hx : Spells name value x)
    (h : Reads i (b ++ [(name, value)]) rest b' operands) : Reads i b (x ++ rest) b' operands
  | operand {b t rest b' operands} (ht : looksLikeOption t = false)
    (h : Reads i b rest b' operands) : Reads i b (t :: rest) b' (t :: operands)

variable {i : Inputs} {b b' d : Bound} {name name' value value' t : Text}
  {x x' args rest rest' operands names values : List Text}

/-! ### The spellings of an option -/

theorem looksLikeOption_hyphens (r : Text) : looksLikeOption ('-' :: '-' :: r) = true := by
  have htrim : Text.trimEnd ('-' :: r) = '-' :: Text.trimEnd r :=
    Text.trimEnd_append_cons (a := []) (by decide)
  have hmagnitude : magnitude? ('-' :: Text.trimEnd r) = none := by
    simp [magnitude?, digits?]
  simp [looksLikeOption, isNumber, htrim, hmagnitude, isImaginaryUnit]

theorem looksLikeOption_assign : looksLikeOption (assign name value) = true :=
  looksLikeOption_hyphens _

theorem looksLikeOption_option : looksLikeOption (option name) = true := looksLikeOption_hyphens _

theorem Spells.exists_cons (h : Spells name value x) :
    ∃ t r, x = t :: r ∧ looksLikeOption t = true := by
  cases h with
  | assigned => exact ⟨_, _, rfl, looksLikeOption_assign⟩
  | spaced => exact ⟨_, _, rfl, looksLikeOption_option⟩

theorem Spells.exists_append {a : Text} {xs ys : List Text} (hx : Spells name value x)
    (ht : looksLikeOption t = true) (h : a :: xs ++ t :: ys = x ++ rest) :
    ∃ xs', a :: xs = x ++ xs' ∧ xs' ++ t :: ys = rest := by
  cases hx with
  | assigned =>
    obtain ⟨rfl, hrest⟩ := List.cons.inj h
    exact ⟨xs, rfl, hrest⟩
  | spaced hvalue =>
    obtain ⟨rfl, hrest⟩ := List.cons.inj h
    cases xs with
    | nil =>
      rw [(List.cons.inj hrest).1, hvalue] at ht
      cases ht
    | cons v xs =>
      obtain ⟨rfl, hrest⟩ := List.cons.inj hrest
      exact ⟨xs, rfl, by simpa using hrest⟩

theorem assign_inj (hname : '=' ∉ name) (hname' : '=' ∉ name')
    (h : assign name value = assign name' value') : name = name' ∧ value = value' := by
  have h : name ++ '=' :: value = name' ++ '=' :: value' := by simpa [assign] using h
  have hcut := Text.cut?_mark (b := value) hname
  rw [h, Text.cut?_mark hname'] at hcut
  simpa [eq_comm] using hcut

theorem assign_ne_option (hname' : '=' ∉ name') : assign name value ≠ option name' := by
  intro h
  have hmark : '=' ∈ assign name value := by simp [assign]
  rw [h] at hmark
  simp [option, hname'] at hmark

theorem Spells.unique (hname : '=' ∉ name) (hname' : '=' ∉ name') (hx : Spells name value x)
    (hx' : Spells name' value' x') (h : x ++ rest = x' ++ rest') :
    name = name' ∧ value = value' ∧ rest = rest' := by
  cases hx with
  | assigned =>
    cases hx' with
    | assigned =>
      obtain ⟨hhead, hrest⟩ := List.cons.inj h
      obtain ⟨rfl, rfl⟩ := assign_inj hname hname' hhead
      exact ⟨rfl, rfl, hrest⟩
    | spaced => exact absurd (List.cons.inj h).1 (assign_ne_option hname')
  | spaced =>
    cases hx' with
    | assigned => exact absurd (List.cons.inj h).1.symm (assign_ne_option hname)
    | spaced => simpa [option] using h

/-! ### The arguments that are understood -/

theorem named?_eq_some (h : i.named? t = some name) :
    name ∈ i.operands ++ i.options ∧ t = option name :=
  ⟨List.mem_of_find?_eq_some h, by simpa [option, eq_comm] using List.find?_some h⟩

theorem named?_of_operand (ht : looksLikeOption t = false) : i.named? t = none := by
  cases h : i.named? t with
  | none => rfl
  | some name =>
    rw [(named?_eq_some h).2, looksLikeOption_option] at ht
    cases ht

theorem readOptions?_spaced (h : name ∈ i.operands ++ i.options) (hname : '=' ∉ name) :
    readOptions? i b (option name :: value :: rest) =
      if looksLikeOption value then none
      else (bind? b name value).bind fun b => readOptions? i b rest := by
  have hcut : (option name).cut? ['='] = none := by
    rw [Text.cut?_eq_none_iff, List.singleton_infix_iff]
    simpa [option] using hname
  have hhead : (option name).head? = some '-' := rfl
  have hnamed : i.named? (option name) = some name := named?_option h
  simp [readOptions?, hcut, hhead, hnamed]

theorem bind?_eq_some_iff :
    bind? b name value = some b' ↔ b.lookup name = none ∧ b' = b ++ [(name, value)] := by
  unfold bind?
  cases b.lookup name <;> simp [eq_comm]

theorem readOptions?_of_operand (ht : looksLikeOption t = false) :
    readOptions? i b (t :: rest) = (readOptions? i b rest).map fun p => (p.1, t :: p.2) := by
  have hnamed := named?_of_operand (i := i) ht
  by_cases hhead : t.head? = some '-'
  case neg => exact readOptions?_operand hhead
  cases hcut : t.cut? ['='] with
  | none => simp [readOptions?, hhead, hcut, hnamed, ht]
  | some p =>
    have hnamed' : i.named? p.1 = none := by
      cases h : i.named? p.1 with
      | none => rfl
      | some name =>
        have hassign : t = assign name p.2 := by
          rw [Text.eq_append_of_cut? hcut, (named?_eq_some h).2]
          simp [option, assign]
        rw [hassign, looksLikeOption_assign] at ht
        cases ht
    simp [readOptions?, hhead, hcut, hnamed', ht]

theorem readOptions?_of_reads (hi : i.Plain) (h : Reads i b args b' operands) :
    readOptions? i b args = some (b', operands) := by
  induction h with
  | nil => rfl
  | given hname hfree hx h ih =>
    cases hx with
    | assigned =>
      rw [List.singleton_append, readOptions?_assign hname (hi _ hname),
        bind?_of_unbound hfree, Option.bind_some, ih]
    | spaced hvalue =>
      rw [List.cons_append, List.singleton_append, readOptions?_spaced hname (hi _ hname),
        bind?_of_unbound hfree, Option.bind_some, ih]
      simp [hvalue]
  | operand ht h ih => rw [readOptions?_of_operand ht, ih, Option.map_some]

theorem reads_of_readOptions? (h : readOptions? i b args = some (b', operands)) :
    Reads i b args b' operands := by
  -- an argument that is not read as an option, in front of arguments that are understood
  have hoperand {b t r operands} (ht : looksLikeOption t = false)
      (ih : ∀ {operands}, readOptions? i b r = some (b', operands) → Reads i b r b' operands)
      (h : (readOptions? i b r).map (fun p => (p.1, t :: p.2)) = some (b', operands)) :
      Reads i b (t :: r) b' operands := by
    obtain ⟨⟨b₁, rest⟩, hr, hp⟩ := Option.map_eq_some_iff.mp h
    obtain ⟨rfl, rfl⟩ := Prod.mk.inj hp
    exact .operand ht (ih hr)
  fun_induction readOptions? i b args generalizing operands with
  | case1 b =>
    obtain ⟨rfl, rfl⟩ := Prod.mk.inj (Option.some.inj h)
    exact .nil
  | case2 b t r operand hhead =>
    rename_i ih
    refine hoperand ?_ ih h
    unfold looksLikeOption
    split
    · simp at hhead
    · rfl
  | case3 b t r hhead option value hcut name hnamed ihr ih =>
    obtain ⟨b₁, hb, h⟩ := Option.bind_eq_some_iff.mp h
    obtain ⟨hfree, rfl⟩ := bind?_eq_some_iff.mp hb
    obtain ⟨hname, rfl⟩ := named?_eq_some hnamed
    have ht : t = assign name value := by
      rw [Text.eq_append_of_cut? hcut]
      simp [Arguments.option, assign]
    rw [ht]
    exact .given hname hfree .assigned (ih _ h)
  | case4 => cases h
  | case5 b t r operand hhead option value hcut hnamed ht =>
    rename_i ih
    exact hoperand (by simpa using ht) ih h
  | case6 => cases h
  | case7 => cases h
  | case8 b t hhead hcut name hnamed value r hvalue ihr ih =>
    obtain ⟨b₁, hb, h⟩ := Option.bind_eq_some_iff.mp h
    obtain ⟨hfree, rfl⟩ := bind?_eq_some_iff.mp hb
    obtain ⟨hname, rfl⟩ := named?_eq_some hnamed
    exact .given hname hfree (.spaced (by simpa using hvalue)) (ih _ h)
  | case9 => cases h
  | case10 b t r operand hhead hcut hnamed ht =>
    rename_i ih
    exact hoperand (by simpa using ht) ih h

theorem readOptions?_eq_some_iff (hi : i.Plain) :
    readOptions? i b args = some (b', operands) ↔ Reads i b args b' operands :=
  ⟨reads_of_readOptions?, readOptions?_of_reads hi⟩

namespace Reads

theorem append {b₁ b₂ : Bound} {xs ys o₁ o₂ : List Text} (h : Reads i b xs b₁ o₁)
    (h' : Reads i b₁ ys b₂ o₂) : Reads i b (xs ++ ys) b₂ (o₁ ++ o₂) := by
  induction h with
  | nil => exact h'
  | given hname hfree hx h ih =>
    rw [List.append_assoc]
    exact .given hname hfree hx (ih h')
  | operand ht h ih => exact .operand ht (ih h')

/-- What is taken for an option is not the value of the one before, so that the arguments before it
are read by themselves. -/
theorem split {xs ys : List Text} (h : Reads i b (xs ++ t :: ys) b' operands)
    (ht : looksLikeOption t = true) :
    ∃ b₁ o₁ o₂, Reads i b xs b₁ o₁ ∧ Reads i b₁ (t :: ys) b' o₂ ∧ operands = o₁ ++ o₂ := by
  generalize hargs : xs ++ t :: ys = args at h
  induction h generalizing xs with
  | nil => simp at hargs
  | @operand b u rest b' operands hu h ih =>
    cases xs with
    | nil =>
      rw [(List.cons.inj hargs).1, hu] at ht
      cases ht
    | cons a xs =>
      obtain ⟨rfl, hrest⟩ := List.cons.inj hargs
      obtain ⟨b₁, o₁, o₂, h₁, h₂, rfl⟩ := ih hrest
      exact ⟨b₁, a :: o₁, o₂, .operand hu h₁, h₂, rfl⟩
  | @given b name value x rest b' operands hname hfree hx h ih =>
    cases xs with
    | nil =>
      rw [List.nil_append] at hargs
      rw [hargs]
      exact ⟨b, [], operands, .nil, .given hname hfree hx h, rfl⟩
    | cons a xs =>
      obtain ⟨xs', hxs, hrest⟩ := hx.exists_append ht hargs
      obtain ⟨b₁, o₁, o₂, h₁, h₂, rfl⟩ := ih hrest
      rw [hxs]
      exact ⟨b₁, o₁, o₂, .given hname hfree hx h₁, h₂, rfl⟩

theorem spelled (hi : i.Plain) (hname : '=' ∉ name) (hx : Spells name value x)
    (h : Reads i b (x ++ rest) b' operands) :
    b.lookup name = none ∧ Reads i (b ++ [(name, value)]) rest b' operands := by
  obtain ⟨t, r, ht, hoption⟩ := hx.exists_cons
  generalize hargs : x ++ rest = args at h
  cases h with
  | nil => simp [ht] at hargs
  | operand hoperand h =>
    rw [ht] at hargs
    rw [← (List.cons.inj hargs).1, hoption] at hoperand
    cases hoperand
  | given hname' hfree hx' h =>
    obtain ⟨rfl, rfl, rfl⟩ := hx.unique hname (hi _ hname') hx' hargs
    exact ⟨hfree, h⟩

end Reads

/-! ### What the arguments give -/

def GivesIn (args : List Text) (name value : Text) : Prop :=
  ∃ x, Spells name value x ∧ x <:+: args

/-- An option gives the input the value, before a pair of hyphens that stands alone. -/
def Gives (args : List Text) (name value : Text) : Prop := GivesIn (splitAtEnd args).1 name value

/-- The value of an input is the one that an option gives, or without one that of the
environment. -/
def InEffect (args : List Text) (environment : Text → Option Text) (name value : Text) : Prop :=
  Gives args name value ∨
    (∀ w, ¬Gives args name w) ∧ environment (environmentName name) = some value

theorem not_givesIn_nil : ¬GivesIn [] name value := by
  rintro ⟨x, hx, hinfix⟩
  obtain ⟨t, r, rfl, -⟩ := hx.exists_cons
  simp at hinfix

theorem givesIn_cons_iff : GivesIn (t :: rest) name value ↔
    (∃ x, Spells name value x ∧ x <+: t :: rest) ∨ GivesIn rest name value := by
  simp [GivesIn, List.infix_cons_iff, and_or_left, exists_or]

theorem givesIn_operand_iff (ht : looksLikeOption t = false) :
    GivesIn (t :: rest) name value ↔ GivesIn rest name value := by
  rw [givesIn_cons_iff, or_iff_right]
  rintro ⟨x, hx, ys, hys⟩
  obtain ⟨u, r, rfl, hu⟩ := hx.exists_cons
  rw [(List.cons.inj hys).1, ht] at hu
  cases hu

theorem givesIn_spelled_iff (hname : '=' ∉ name) (hname' : '=' ∉ name')
    (hx : Spells name' value' x) :
    GivesIn (x ++ rest) name value ↔ (name = name' ∧ value = value') ∨ GivesIn rest name value := by
  have hstart : (∃ y, Spells name value y ∧ y <+: x ++ rest) ↔ name = name' ∧ value = value' := by
    constructor
    · rintro ⟨y, hy, ys, hys⟩
      obtain ⟨rfl, rfl, -⟩ := hy.unique hname hname' hx hys
      exact ⟨rfl, rfl⟩
    · rintro ⟨rfl, rfl⟩
      exact ⟨x, hx, rest, rfl⟩
  cases hx with
  | assigned =>
    rw [List.singleton_append] at hstart ⊢
    rw [givesIn_cons_iff, hstart]
  | spaced hvalue =>
    rw [List.cons_append, List.singleton_append] at hstart ⊢
    rw [givesIn_cons_iff, hstart, givesIn_operand_iff hvalue]

theorem lookup_concat_of_ne (h : name ≠ name') :
    (b ++ [(name', value')]).lookup name = b.lookup name := by
  have hne : (name == name') = false := by simpa using h
  simp [List.lookup_append, List.lookup_cons, hne]

theorem lookup_concat_eq_some_iff (hfree : b.lookup name' = none) :
    (b ++ [(name', value')]).lookup name = some value ↔
      b.lookup name = some value ∨ (name = name' ∧ value = value') := by
  by_cases h : name = name'
  · subst h
    simp [List.lookup_append, hfree, eq_comm]
  · simp [lookup_concat_of_ne h, h]

namespace Reads

/-- An input has the value it had before, or the one that an option among the arguments gives. -/
theorem lookup_eq_some_iff (hi : i.Plain) (hname : '=' ∉ name) (h : Reads i b args b' operands) :
    b'.lookup name = some value ↔ b.lookup name = some value ∨ GivesIn args name value := by
  induction h with
  | nil => simp [not_givesIn_nil]
  | given hname' hfree hx h ih =>
    rw [ih, lookup_concat_eq_some_iff hfree, givesIn_spelled_iff hname (hi _ hname') hx, or_assoc]
  | operand ht h ih => rw [ih, givesIn_operand_iff ht]

theorem lookup_eq_none (hi : i.Plain) (hname : '=' ∉ name) (h : Reads i b args b' operands)
    (hgives : GivesIn args name value) : b.lookup name = none := by
  obtain ⟨x, hx, xs, ys, rfl⟩ := hgives
  obtain ⟨t, r, ht, hoption⟩ := hx.exists_cons
  rw [List.append_assoc, ht, List.cons_append] at h
  obtain ⟨b₁, o₁, o₂, h₁, h₂, -⟩ := h.split hoption
  rw [← List.cons_append, ← ht] at h₂
  obtain ⟨hfree, -⟩ := h₂.spelled hi hname hx
  rw [Option.eq_none_iff_forall_ne_some] at hfree ⊢
  exact fun w hw => hfree w ((h₁.lookup_eq_some_iff hi hname).mpr (.inl hw))

end Reads

/-! ### One option in the place of another -/

/-- The values agree, except perhaps those of the given inputs. -/
def AgreeOff (names : List Text) (b d : Bound) : Prop := ∀ n ∉ names, b.lookup n = d.lookup n

theorem AgreeOff.append (h : AgreeOff names b d) (c : Bound) :
    AgreeOff names (b ++ c) (d ++ c) := by
  intro n hn
  rw [List.lookup_append, List.lookup_append, h n hn]

theorem agreeOff_concat (b : Bound) (value value' : Text) :
    AgreeOff [name, name'] (b ++ [(name, value)]) (b ++ [(name', value')]) := by
  intro n hn
  simp only [List.mem_cons, List.not_mem_nil, or_false, not_or] at hn
  rw [lookup_concat_of_ne hn.1, lookup_concat_of_ne hn.2]

/-- Arguments are read alike after other values, as long as they give none of the inputs that have a
value there and had none here. -/
theorem Reads.of_agreeOff (hi : i.Plain) (h : Reads i b args b' operands)
    (hagree : AgreeOff names b d)
    (hfree : ∀ n ∈ names, '=' ∉ n ∧ ∀ v, GivesIn args n v → d.lookup n = none) :
    ∃ d', Reads i d args d' operands ∧ AgreeOff names b' d' := by
  induction h generalizing d with
  | nil => exact ⟨d, .nil, hagree⟩
  | @given b name value x rest b' operands hname hb hx h ih =>
    have hd : d.lookup name = none := by
      by_cases hn : name ∈ names
      · exact (hfree name hn).2 value ⟨x, hx, (List.prefix_append x rest).isInfix⟩
      · rw [← hagree name hn, hb]
    obtain ⟨d', hd', hagree'⟩ := ih (hagree.append [(name, value)]) fun n hn => by
      obtain ⟨hmark, hnone⟩ := hfree n hn
      refine ⟨hmark, fun v hv => ?_⟩
      have hrest := h.lookup_eq_none hi hmark hv
      rw [List.lookup_append, Option.or_eq_none_iff] at hrest ⊢
      obtain ⟨y, hy, hinfix⟩ := hv
      exact ⟨hnone v ⟨y, hy, hinfix.trans (List.suffix_append x rest).isInfix⟩, hrest.2⟩
    exact ⟨d', .given hname hd hx hd', hagree'⟩
  | operand ht h ih =>
    obtain ⟨d', hd', hagree'⟩ := ih hagree fun n hn =>
      ⟨(hfree n hn).1, fun v hv => (hfree n hn).2 v ((givesIn_operand_iff ht).mpr hv)⟩
    exact ⟨d', .operand ht hd', hagree'⟩

theorem lookup_of_readOperands? (h : readOperands? b names values = some b')
    (hname : name ∉ names) : b'.lookup name = b.lookup name := by
  fun_induction readOperands? b names values with
  | case1 => rw [Option.some.inj h]
  | case2 => cases h
  | case3 b n names v values ih =>
    obtain ⟨b₁, hb, h⟩ := Option.bind_eq_some_iff.mp h
    obtain ⟨-, rfl⟩ := bind?_eq_some_iff.mp hb
    simp only [List.mem_cons, not_or] at hname
    rw [ih _ h hname.2, lookup_concat_of_ne hname.1]

theorem readOperands?_of_agreeOff {ns : List Text} (h : readOperands? b names values = some b')
    (hagree : AgreeOff ns b d) (hdisjoint : ∀ n ∈ names, n ∉ ns) :
    ∃ d', readOperands? d names values = some d' ∧ AgreeOff ns b' d' := by
  fun_induction readOperands? b names values generalizing d with
  | case1 =>
    rw [← Option.some.inj h]
    exact ⟨d, by simp [readOperands?], hagree⟩
  | case2 => cases h
  | case3 b n names v values ih =>
    obtain ⟨b₁, hb, h⟩ := Option.bind_eq_some_iff.mp h
    obtain ⟨hfree, rfl⟩ := bind?_eq_some_iff.mp hb
    have hd : d.lookup n = none := by rw [← hagree n (hdisjoint n (by simp)), hfree]
    obtain ⟨d', hd', hagree'⟩ :=
      ih _ h (hagree.append [(n, v)]) fun m hm => hdisjoint m (by simp [hm])
    exact ⟨d', by rw [readOperands?, bind?_of_unbound hd, Option.bind_some, hd'], hagree'⟩

theorem splitAtEnd_append {xs : List Text} (h : ['-', '-'] ∉ xs) (ys : List Text) :
    splitAtEnd (xs ++ ys) = (xs ++ (splitAtEnd ys).1, (splitAtEnd ys).2) := by
  induction xs with
  | nil => rfl
  | cons t xs ih =>
    simp only [List.mem_cons, not_or] at h
    simp [splitAtEnd, Ne.symm h.1, ih h.2]

theorem Spells.hyphens_notMem (hname : name ≠ []) (hx : Spells name value x) :
    ['-', '-'] ∉ x := by
  cases hx with
  | assigned => simpa using (assign_ne_hyphens hname).symm
  | spaced hvalue =>
    have hne : ['-', '-'] ≠ value := by
      rintro rfl
      simp [looksLikeOption_hyphens] at hvalue
    simpa [option, hne] using hname

theorem read?_eq_some_iff (hi : i.Plain) :
    read? i args = some b' ↔ ∃ b operands, Reads i [] (splitAtEnd args).1 b operands ∧
      readOperands? b i.operands (operands ++ (splitAtEnd args).2) = some b' := by
  simp [read?, ← readOptions?_eq_some_iff hi, Option.bind_eq_some_iff]

theorem lookup_eq_some_iff_gives (hi : i.Plain) (hmark : '=' ∉ name) (hname : name ∉ i.operands)
    (h : read? i args = some b) : b.lookup name = some value ↔ Gives args name value := by
  obtain ⟨b₁, operands, hreads, hoperands⟩ := (read?_eq_some_iff hi).mp h
  rw [lookup_of_readOperands? hoperands hname, hreads.lookup_eq_some_iff hi hmark]
  simp [Gives]

theorem value?_eq_some_iff (hi : i.Plain) (hmark : '=' ∉ name) (hname : name ∉ i.operands)
    (h : read? i args = some b) (environment : Text → Option Text) :
    value? b environment name = some value ↔ InEffect args environment name value := by
  have hgives (w : Text) : b.lookup name = some w ↔ Gives args name w :=
    lookup_eq_some_iff_gives hi hmark hname h
  unfold value? InEffect
  simp only [← hgives]
  cases b.lookup name <;> simp [eq_comm]

/-- Arguments with an option among them are read as those before it, the option, and those after it,
which give neither its input again nor one that is given before. -/
theorem read?_spelled_iff (hi : i.Plain) {xs ys : List Text} (hend : ['-', '-'] ∉ xs)
    (hname : name ∈ i.operands ++ i.options) (hne : name ≠ []) (hx : Spells name value x) :
    read? i (xs ++ x ++ ys) = some b' ↔ ∃ b₁ o₁ b₂ o₂, Reads i [] xs b₁ o₁ ∧
      b₁.lookup name = none ∧ Reads i (b₁ ++ [(name, value)]) (splitAtEnd ys).1 b₂ o₂ ∧
      readOperands? b₂ i.operands (o₁ ++ o₂ ++ (splitAtEnd ys).2) = some b' := by
  have hx' : ['-', '-'] ∉ xs ++ x := by simpa [hend] using hx.hyphens_notMem hne
  rw [read?_eq_some_iff hi, splitAtEnd_append hx', List.append_assoc]
  constructor
  · rintro ⟨b₂, operands, hreads, hoperands⟩
    obtain ⟨t, r, ht, hoption⟩ := hx.exists_cons
    rw [ht, List.cons_append] at hreads
    obtain ⟨b₁, o₁, o₂, h₁, h₂, rfl⟩ := hreads.split hoption
    rw [← List.cons_append, ← ht] at h₂
    obtain ⟨hfree, h₂⟩ := h₂.spelled hi (hi name hname) hx
    exact ⟨b₁, o₁, b₂, o₂, h₁, hfree, h₂, hoperands⟩
  · rintro ⟨b₁, o₁, b₂, o₂, h₁, hfree, h₂, hoperands⟩
    exact ⟨b₂, o₁ ++ o₂, h₁.append (.given hname hfree hx h₂), hoperands⟩

theorem gives_spelled {xs ys : List Text} (hend : ['-', '-'] ∉ xs) (hne : name ≠ [])
    (hx : Spells name value x) : Gives (xs ++ x ++ ys) name value := by
  have hx' : ['-', '-'] ∉ xs ++ x := by simpa [hend] using hx.hyphens_notMem hne
  rw [Gives, splitAtEnd_append hx']
  exact ⟨x, hx, xs, (splitAtEnd ys).1, rfl⟩

/-- An option may stand in the place of another one. The arguments are still understood where its
input is not given elsewhere, and only the values of the two inputs change. -/
theorem read?_replace (hi : i.Plain) {xs y ys : List Text} (hend : ['-', '-'] ∉ xs)
    (hx : Spells name value x) (hy : Spells name' value' y)
    (hnames : ∀ n ∈ [name, name'], n ∈ i.options ∧ n ∉ i.operands ∧ n ≠ [])
    (hdistinct : name ≠ name') (h : read? i (xs ++ x ++ ys) = some b)
    (hfree : ∀ w, ¬Gives (xs ++ x ++ ys) name' w) :
    ∃ d, read? i (xs ++ y ++ ys) = some d ∧ AgreeOff [name, name'] b d ∧
      ∀ w, ¬Gives (xs ++ y ++ ys) name w := by
  obtain ⟨⟨hname, hoperand, hne⟩, hname', hoperand', hne'⟩ :
      (name ∈ i.options ∧ name ∉ i.operands ∧ name ≠ []) ∧
        name' ∈ i.options ∧ name' ∉ i.operands ∧ name' ≠ [] := by simpa using hnames
  replace hname : name ∈ i.operands ++ i.options := List.mem_append_right _ hname
  replace hname' : name' ∈ i.operands ++ i.options := List.mem_append_right _ hname'
  obtain ⟨b₁, o₁, b₂, o₂, h₁, hb₁, h₂, hoperands⟩ :=
    (read?_spelled_iff hi hend hname hne hx).mp h
  -- neither of the two inputs is given before the option or after it
  have hafter (w : Text) : ¬GivesIn (splitAtEnd ys).1 name w := fun hw => by
    have hlookup := h₂.lookup_eq_none hi (hi _ hname) hw
    simp [List.lookup_append] at hlookup
  have hnot (w : Text) : ¬((b₁ ++ [(name, value)]).lookup name' = some w ∨
      GivesIn (splitAtEnd ys).1 name' w) := by
    rw [← h₂.lookup_eq_some_iff hi (hi _ hname'), ← lookup_of_readOperands? hoperands hoperand',
      lookup_eq_some_iff_gives hi (hi _ hname') hoperand' h]
    exact hfree w
  have hb₁' : b₁.lookup name' = none := by
    rw [Option.eq_none_iff_forall_ne_some]
    exact fun w hw => hnot w (.inl ((lookup_concat_eq_some_iff hb₁).mpr (.inl hw)))
  have hnotGiven : ∀ n ∈ [name, name'], '=' ∉ n ∧
      ∀ v, GivesIn (splitAtEnd ys).1 n v → (b₁ ++ [(name', value')]).lookup n = none := by
    simp only [List.forall_mem_cons]
    exact ⟨⟨hi _ hname, fun v hv => absurd hv (hafter v)⟩,
      ⟨hi _ hname', fun v hv => absurd (.inr hv) (hnot v)⟩, by simp⟩
  obtain ⟨d₂, h₃, hagree⟩ := h₂.of_agreeOff hi (agreeOff_concat b₁ value value') hnotGiven
  have hdisjoint : ∀ n ∈ i.operands, n ∉ [name, name'] := by
    intro n hn hmem
    exact (hnames n hmem).2.1 hn
  obtain ⟨d, hd, hagree⟩ := readOperands?_of_agreeOff hoperands hagree hdisjoint
  have hread : read? i (xs ++ y ++ ys) = some d :=
    (read?_spelled_iff hi hend hname' hne' hy).mpr ⟨b₁, o₁, d₂, o₂, h₁, hb₁', h₃, hd⟩
  refine ⟨d, hread, hagree, fun w hw => ?_⟩
  rw [← lookup_eq_some_iff_gives hi (hi _ hname) hoperand hread,
    lookup_of_readOperands? hd hoperand, h₃.lookup_eq_some_iff hi (hi _ hname),
    lookup_concat_eq_some_iff hb₁', hb₁] at hw
  simp [hdistinct, hafter] at hw

end Bulletin.Arguments
