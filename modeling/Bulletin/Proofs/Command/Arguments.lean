import Bulletin.Command.Run
import Bulletin.Proofs.Text.Split

/-! Binding arguments. An option with its value after an equals sign binds the input it names,
whatever the value is, and an argument without a hyphen at its start is an operand. -/

namespace Bulletin.Arguments

variable {i : Inputs} {b : Bound} {rest : List Text} {name value t : Text}

def assign (name value : Text) : Text := ['-', '-'] ++ name ++ '=' :: value

theorem named?_option (h : name ∈ i.operands ++ i.options) :
    i.named? ('-' :: '-' :: name) = some name := by
  unfold Inputs.named?
  cases hfind : (i.operands ++ i.options).find? fun n => ['-', '-'] ++ n = '-' :: '-' :: name with
  | none =>
    have hnone := List.find?_eq_none.mp hfind name h
    simp at hnone
  | some found =>
    have hsome := List.find?_some hfind
    simp_all

theorem readOptions?_assign (h : name ∈ i.operands ++ i.options) (hname : '=' ∉ name) :
    readOptions? i b (assign name value :: rest) =
      (bind? b name value).bind fun b => readOptions? i b rest := by
  have hcut : (assign name value).cut? ['='] = some (['-', '-'] ++ name, value) :=
    Text.cut?_mark (by simpa using hname)
  have hhead : (assign name value).head? = some '-' := rfl
  simp [readOptions?, hcut, hhead, named?_option h]

theorem readOptions?_operand (h : t.head? ≠ some '-') :
    readOptions? i b (t :: rest) = (readOptions? i b rest).map fun p => (p.1, t :: p.2) := by
  simp [readOptions?, h]

theorem bind?_of_unbound (h : b.lookup name = none) :
    bind? b name value = some (b ++ [(name, value)]) := by
  simp [bind?, h]

theorem splitAtEnd_eq_self {args : List Text} (h : ∀ t ∈ args, t ≠ ['-', '-']) :
    splitAtEnd args = (args, []) := by
  induction args with
  | nil => rfl
  | cons t rest ih =>
    have ht : t ≠ ['-', '-'] := h t (by simp)
    have hrest := ih fun u hu => h u (by simp [hu])
    simp [splitAtEnd, ht, hrest]

theorem assign_ne_hyphens (hname : name ≠ []) : assign name value ≠ ['-', '-'] := by
  simp [assign, hname]

theorem read?_of_options {args operands : List Text} {b' : Bound}
    (hend : ∀ t ∈ args, t ≠ ['-', '-']) (hoptions : readOptions? i [] args = some (b, operands))
    (hoperands : readOperands? b i.operands operands = some b') : read? i args = some b' := by
  simp [read?, splitAtEnd_eq_self hend, hoptions, hoperands]

end Bulletin.Arguments

namespace Bulletin.Command
open Arguments

def bodyArguments (path : Text) (t : CardText) : List Text :=
  ["body".toList, path, assign "metric-title" t.title, assign "metric-description" t.description]

def cardArguments (t : CardText) : List Text :=
  ["card".toList, assign "title" t.title, assign "description" t.description]

theorem ofArguments?_body {path : Text} (t : CardText) (environment : Text → Option Text)
    (hpath : path.head? ≠ some '-') :
    ofArguments? (bodyArguments path t) environment =
      some (.body (.ofText path) t.title t.description
        ((environment "INPUT_METRIC_DESCRIPTION_FILE").map .ofText)) := by
  have hoptions : readOptions? bodyInputs [] [path, assign "metric-title" t.title,
      assign "metric-description" t.description] =
        some ([("metric-title".toList, t.title), ("metric-description".toList, t.description)],
          [path]) := by
    rw [readOptions?_operand hpath, readOptions?_assign (by decide) (by decide),
      bind?_of_unbound rfl, Option.bind_some, readOptions?_assign (by decide) (by decide),
      bind?_of_unbound rfl]
    rfl
  have hread : read? bodyInputs [path, assign "metric-title" t.title,
      assign "metric-description" t.description] =
        some [("metric-title".toList, t.title), ("metric-description".toList, t.description),
          ("path".toList, path)] := by
    refine read?_of_options ?_ hoptions rfl
    have hne : path ≠ ['-', '-'] := by
      rintro rfl
      simp at hpath
    simp [hne, assign_ne_hyphens]
  simp only [bodyArguments, ofArguments?, hread]
  rfl

theorem ofArguments?_card (t : CardText) (environment : Text → Option Text) :
    ofArguments? (cardArguments t) environment =
      some (.card t.title t.description
        ((environment "INPUT_DESCRIPTION_FILE").map .ofText)) := by
  have hoptions : readOptions? cardInputs [] [assign "title" t.title,
      assign "description" t.description] =
        some ([("title".toList, t.title), ("description".toList, t.description)], []) := by
    rw [readOptions?_assign (by decide) (by decide), bind?_of_unbound rfl, Option.bind_some,
      readOptions?_assign (by decide) (by decide), bind?_of_unbound rfl]
    rfl
  have hread : read? cardInputs [assign "title" t.title, assign "description" t.description] =
        some [("title".toList, t.title), ("description".toList, t.description)] :=
    read?_of_options (by simp [assign_ne_hyphens]) hoptions rfl
  simp only [cardArguments, ofArguments?, hread]
  rfl

end Bulletin.Command
