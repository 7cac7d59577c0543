import Bulletin.Proofs.Command.Binding
import Bulletin.Proofs.Command.Preview
import Bulletin.Session

/-! The description of a card, as a text or as a file. The two commands that show markup take the
description in either form. Which form is in effect is settled by the arguments and the environment
before any file is looked at, so that a text and a file together are refused in every tree of files;
and a file shows what its text shows. -/

namespace Bulletin.Command
open Arguments

inductive Preview where
  | body
  | card

namespace Preview

def name : Preview → Text
  | .body => "body"
  | .card => "card"

def inputs : Preview → Inputs
  | .body => bodyInputs
  | .card => cardInputs

def title : Preview → Text
  | .body => "metric-title"
  | .card => "title"

def given : Preview → Text
  | .body => "metric-description"
  | .card => "description"

def file (k : Preview) : Text := k.given ++ "-file".toList

def command (k : Preview) (value : Text → Option Text) : Option Command :=
  let title := (value k.title).getD []
  let description := (value k.given).getD []
  let file := (value k.file).map Path.ofText
  match k with
  | .body => (value "path").bind fun path => some (.body (.ofText path) title description file)
  | .card => some (.card title description file)

def Accepts (k : Preview) (args : List Text) (environment : Text → Option Text) : Prop :=
  ∃ c, ofArguments? (k.name :: args) environment = some c

/-- What is printed for a description; only the body preview looks at a path. -/
def shown (k : Preview) (fs : Files) (here : Place) (title path description : Text) :
    Except Failure Text :=
  match k with
  | .body => readText fs here (.ofText path) >>= fun body =>
      .ok (Html.renderBody body ⟨title, description⟩ ++ ['\n'])
  | .card => .ok (Html.renderCard ⟨title, description⟩ ++ ['\n'])

theorem inputs_plain (k : Preview) : k.inputs.Plain := by
  cases k <;> simp only [Inputs.Plain] <;> decide

theorem description_inputs (k : Preview) :
    ∀ n ∈ [k.file, k.given], n ∈ k.inputs.options ∧ n ∉ k.inputs.operands ∧ n ≠ [] := by
  cases k <;> decide

theorem other_inputs (k : Preview) :
    k.title ∉ [k.file, k.given] ∧ "path".toList ∉ [k.file, k.given] := by
  cases k <;> decide

theorem file_mem (k : Preview) : k.file ∈ [k.file, k.given] := by simp

theorem given_mem (k : Preview) : k.given ∈ [k.file, k.given] := by simp

theorem file_ne_given (k : Preview) : k.file ≠ k.given := by cases k <;> decide

end Preview

variable {k : Preview} {fs : Files} {here : Place} {environment : Text → Option Text}
  {args : List Text} {b d : Bound} {title path text o t s : Text} {file : Option Path}

theorem ofArguments?_preview (k : Preview) (args : List Text) (environment : Text → Option Text) :
    ofArguments? (k.name :: args) environment =
      (read? k.inputs args).bind fun b => k.command (value? b environment) := by
  cases k <;> rfl

theorem run_preview {value : Text → Option Text} {c : Command} (h : k.command value = some c) :
    run fs here c = (fs, resolveText fs here ((value k.given).getD []) ((value k.file).map .ofText)
      k.given >>= k.shown fs here ((value k.title).getD []) ((value "path").getD [])) := by
  cases k with
  | body =>
    obtain ⟨path, hpath, hc⟩ := Option.bind_eq_some_iff.mp h
    obtain rfl := Option.some.inj hc
    rw [hpath]
    rfl
  | card =>
    cases h
    rfl

theorem readText_ne_bothGiven {p : Path} : readText fs here p ≠ .error (.bothGiven o) := by
  unfold readText
  cases fs.read here p with
  | error e => simp [Except.mapError, bind, Except.bind]
  | ok bytes =>
    cases h : Encoding.readText? bytes <;> simp [Except.mapError, bind, Except.bind, h]

theorem shown_ne_bothGiven : k.shown fs here title path t ≠ .error (.bothGiven o) := by
  cases k with
  | card => simp [Preview.shown]
  | body =>
    cases h : readText fs here (.ofText path) with
    | ok body => simp [Preview.shown, h, bind, Except.bind]
    | error e =>
      have hne := h ▸ readText_ne_bothGiven (o := o)
      simpa [Preview.shown, h, bind, Except.bind] using hne

theorem resolveText_bind_eq_bothGiven_iff :
    (resolveText fs here text file k.given >>= k.shown fs here title path) =
      .error (.bothGiven o) ↔ o = k.given ∧ (∃ p, file = some p) ∧ text ≠ [] := by
  cases file with
  | none => simp [resolveText, bind, Except.bind, shown_ne_bothGiven]
  | some p =>
    by_cases htext : text = []
    · cases h : readText fs here p with
      | ok t => simp [resolveText, htext, h, bind, Except.bind, shown_ne_bothGiven]
      | error e =>
        have hne := h ▸ readText_ne_bothGiven (o := o)
        simpa [resolveText, htext, h, bind, Except.bind] using hne
    · simp [resolveText, htext, bind, Except.bind, eq_comm]

theorem runArguments_preview (hread : read? k.inputs args = some b)
    (h : k.Accepts args environment) :
    runArguments fs here (k.name :: args) environment =
      (fs, resolveText fs here ((value? b environment k.given).getD [])
        ((value? b environment k.file).map .ofText) k.given >>=
          k.shown fs here ((value? b environment k.title).getD [])
            ((value? b environment "path").getD [])) := by
  obtain ⟨c, hc⟩ := h
  have hcommand := hc
  rw [ofArguments?_preview, hread, Option.bind_some] at hcommand
  rw [runArguments_of_ofArguments? hc, run_preview hcommand]

theorem accepts_iff (hread : read? k.inputs args = some b) : k.Accepts args environment ↔
    ∀ n ∈ k.inputs.operands, ∃ v, value? b environment n = some v := by
  rw [Preview.Accepts, ofArguments?_preview, hread, Option.bind_some]
  cases k <;> simp [Preview.command, Preview.inputs, bodyInputs, cardInputs,
    Option.bind_eq_some_iff]

theorem Preview.Accepts.exists_read (h : k.Accepts args environment) :
    ∃ b, read? k.inputs args = some b := by
  obtain ⟨c, hc⟩ := h
  rw [ofArguments?_preview] at hc
  obtain ⟨b, hread, -⟩ := Option.bind_eq_some_iff.mp hc
  exact ⟨b, hread⟩

theorem value?_congr {n : Text} (environment : Text → Option Text) (h : b.lookup n = d.lookup n) :
    value? b environment n = value? d environment n := by
  rw [value?, value?, h]

theorem value?_eq_some_iff_inEffect (hread : read? k.inputs args = some b) {n v : Text}
    (hn : n ∈ [k.file, k.given]) :
    value? b environment n = some v ↔ InEffect args environment n v := by
  obtain ⟨hoption, hoperand, -⟩ := k.description_inputs n hn
  exact value?_eq_some_iff k.inputs_plain (k.inputs_plain n (List.mem_append_right _ hoption))
    hoperand hread environment

theorem value?_eq_none {n : Text} (hread : read? k.inputs args = some b)
    (hn : n ∈ [k.file, k.given]) (hfree : ∀ w, ¬Gives args n w)
    (henvironment : environment (environmentName n) = none) : value? b environment n = none := by
  rw [Option.eq_none_iff_forall_ne_some]
  intro v hv
  rcases (value?_eq_some_iff_inEffect hread hn).mp hv with hgives | ⟨-, hv⟩
  · exact hfree v hgives
  · rw [henvironment] at hv
    cases hv

/-- A preview fails for a text and a file exactly where both are in effect. -/
theorem runArguments_eq_bothGiven_iff (h : k.Accepts args environment) :
    runArguments fs here (k.name :: args) environment = (fs, .error (.bothGiven o)) ↔
      o = k.given ∧ (∃ p, InEffect args environment k.file p) ∧
        ∃ t, t ≠ [] ∧ InEffect args environment k.given t := by
  obtain ⟨b, hread⟩ := h.exists_read
  have hfile : (∃ p, (value? b environment k.file).map Path.ofText = some p) ↔
      ∃ p, InEffect args environment k.file p := by
    simp only [← value?_eq_some_iff_inEffect hread k.file_mem]
    cases value? b environment k.file <;> simp
  have hgiven : (value? b environment k.given).getD [] ≠ [] ↔
      ∃ t, t ≠ [] ∧ InEffect args environment k.given t := by
    simp only [← value?_eq_some_iff_inEffect hread k.given_mem]
    cases value? b environment k.given <;> simp
  rw [runArguments_preview hread h, Prod.mk.injEq, resolveText_bind_eq_bothGiven_iff, hfile, hgiven]
  simp

/-- One of the two description options may stand in the place of the other. -/
theorem Preview.Accepts.replace {before after x y : List Text} {n n' v v' : Text}
    (hend : ['-', '-'] ∉ before) (hx : Spells n v x) (hy : Spells n' v' y)
    (hn : n ∈ [k.file, k.given]) (hn' : n' ∈ [k.file, k.given]) (hne : n ≠ n')
    (h : k.Accepts (before ++ x ++ after) environment)
    (hfree : ∀ w, ¬Gives (before ++ x ++ after) n' w) :
    k.Accepts (before ++ y ++ after) environment ∧ (∀ w, ¬Gives (before ++ y ++ after) n w) ∧
      ∃ b d, read? k.inputs (before ++ x ++ after) = some b ∧
        read? k.inputs (before ++ y ++ after) = some d ∧ AgreeOff [k.file, k.given] b d := by
  obtain ⟨b, hread⟩ := h.exists_read
  have hnames : ∀ m ∈ [n, n'], m ∈ [k.file, k.given] :=
    List.forall_mem_cons.mpr ⟨hn, List.forall_mem_cons.mpr ⟨hn', by simp⟩⟩
  obtain ⟨d, hread', hagree, hfree'⟩ := read?_replace k.inputs_plain hend hx hy
    (fun m hm => k.description_inputs m (hnames m hm)) hne hread hfree
  have hagree : AgreeOff [k.file, k.given] b d := fun m hm => hagree m fun h => hm (hnames m h)
  refine ⟨?_, hfree', b, d, hread, hread', hagree⟩
  rw [accepts_iff hread] at h
  refine (accepts_iff hread').mpr fun m hm => ?_
  rw [← value?_congr environment (hagree m fun hmem => (k.description_inputs m hmem).2.1 hm)]
  exact h m hm

theorem runArguments_file_eq_given {before after x y : List Text} {p : Text}
    (hend : ['-', '-'] ∉ before) (hx : Spells k.file p x) (hy : Spells k.given s.uniformLines y)
    (hfile : environment (environmentName k.file) = none)
    (hgiven : environment (environmentName k.given) = none)
    (hp : fs.read here (.ofText p) = .ok (Encoding.encode s))
    (h : k.Accepts (before ++ x ++ after) environment)
    (hfree : ∀ w, ¬Gives (before ++ x ++ after) k.given w) :
    ∃ title path,
      runArguments fs here (k.name :: (before ++ x ++ after)) environment =
        (fs, k.shown fs here title path s.uniformLines) ∧
      runArguments fs here (k.name :: (before ++ y ++ after)) environment =
        (fs, k.shown fs here title path s.uniformLines) := by
  obtain ⟨h', hfree', b, d, hread, hread', hagree⟩ :=
    h.replace hend hx hy k.file_mem k.given_mem k.file_ne_given hfree
  have hne := (k.description_inputs _ k.file_mem).2.2
  have hne' := (k.description_inputs _ k.given_mem).2.2
  have hbFile : value? b environment k.file = some p :=
    (value?_eq_some_iff_inEffect hread k.file_mem).mpr (.inl (gives_spelled hend hne hx))
  have hbGiven := value?_eq_none hread k.given_mem hfree hgiven
  have hdFile := value?_eq_none hread' k.file_mem hfree' hfile
  have hdGiven : value? d environment k.given = some s.uniformLines :=
    (value?_eq_some_iff_inEffect hread' k.given_mem).mpr (.inl (gives_spelled hend hne' hy))
  have htitle := value?_congr environment (hagree k.title k.other_inputs.1)
  have hpath := value?_congr environment (hagree "path" k.other_inputs.2)
  refine ⟨(value? b environment k.title).getD [], (value? b environment "path").getD [], ?_, ?_⟩
  · rw [runArguments_preview hread h, hbFile, hbGiven]
    simp [resolveText, readText_encode hp, bind, Except.bind]
  · rw [runArguments_preview hread' h', hdFile, hdGiven, htitle, hpath]
    rfl

/-- A description in a file is the text of the file, and it is refused beside another text. The
option for a file may give way to the option for its text with uniform line endings, wherever it
stands and however either is spelled, and what is shown stays the same. A preview fails for a text
and a file exactly where both are in effect, in every tree of files, and prints nothing then. -/
theorem descriptions_agree (k : Preview) (fs : Files) (here : Place)
    (environment : Text → Option Text) :
    (∀ (before after x y : List Text) (p s : Text), ['-', '-'] ∉ before → Spells k.file p x →
      Spells k.given s.uniformLines y → environment (environmentName k.file) = none →
      environment (environmentName k.given) = none →
      fs.read here (.ofText p) = .ok (Encoding.encode s) →
      (k.Accepts (before ++ x ++ after) environment ∧
          ∀ w, ¬Gives (before ++ x ++ after) k.given w) ∨
        (k.Accepts (before ++ y ++ after) environment ∧
          ∀ w, ¬Gives (before ++ y ++ after) k.file w) →
      k.Accepts (before ++ x ++ after) environment ∧
      k.Accepts (before ++ y ++ after) environment ∧ ∃ title path,
        runArguments fs here (k.name :: (before ++ x ++ after)) environment =
          (fs, k.shown fs here title path s.uniformLines) ∧
        runArguments fs here (k.name :: (before ++ y ++ after)) environment =
          (fs, k.shown fs here title path s.uniformLines)) ∧
    (∀ args o, k.Accepts args environment →
      (runArguments fs here (k.name :: args) environment = (fs, .error (.bothGiven o)) ↔
        o = k.given ∧ (∃ p, InEffect args environment k.file p) ∧
          ∃ t, t ≠ [] ∧ InEffect args environment k.given t)) ∧
    (∀ args o current,
      runArguments fs here (k.name :: args) environment = (fs, .error (.bothGiven o)) →
      Session.printed
        (Session.step here ⟨fs, current⟩ (.command (k.name :: args) environment)).2 = []) ∧
    (Failure.bothGiven k.given).message? =
      some ("Pass either --".toList ++ k.given ++ " or --".toList ++ k.file ++
        ", not both.".toList) := by
  refine ⟨?_, fun args o h => runArguments_eq_bothGiven_iff h, ?_, ?_⟩
  · intro before after x y p s hend hx hy hfile hgiven hp h
    -- either list is understood, so that both are
    obtain ⟨hax, hfree⟩ : k.Accepts (before ++ x ++ after) environment ∧
        ∀ w, ¬Gives (before ++ x ++ after) k.given w := by
      rcases h with h | ⟨hay, hfree⟩
      · exact h
      · obtain ⟨hax, hfree', -⟩ :=
          hay.replace hend hy hx k.given_mem k.file_mem k.file_ne_given.symm hfree
        exact ⟨hax, hfree'⟩
    obtain ⟨hay, -⟩ := hax.replace hend hx hy k.file_mem k.given_mem k.file_ne_given hfree
    exact ⟨hax, hay, runArguments_file_eq_given hend hx hy hfile hgiven hp hax hfree⟩
  · intro args o current h
    simp [Session.step, h, Session.printed]
  · simp [Failure.message?, Preview.file]

/-- A file whose text starts with a hyphen and has an equals sign and line endings of two kinds; and
a text beside a file that is missing, the file from the environment. -/
theorem descriptions_agree_hyphen :
    let s : Text := "-a=b\r\n| c\r"
    let files : Files := { entries := [(["w"], .directory),
      (["d", "w"], .file (Encoding.encode s))] }
    let unset : Text → Option Text := fun _ => none
    let fromFile : Text → Option Text := fun name =>
      if name = "INPUT_DESCRIPTION_FILE".toList then some "missing" else none
    runArguments files ["w"] ["card", "--title", "N", "--description-file", "d"] unset =
        runArguments files ["w"] ["card", "--title", "N", "--description=-a=b\n| c\n"] unset ∧
      runArguments files ["w"] ["card", "--description", "x"] fromFile =
        (files, .error (.bothGiven "description")) := by
  intro s files unset fromFile
  have hd : files.locate ["w"] (.ofText "d") = .ok ["d", "w"] := by decide
  have hp : files.read ["w"] (.ofText "d") = .ok (Encoding.encode s) := by
    rw [Files.read, hd]
    rfl
  have hnot {args : List Text} {b : Bound} (n : Text) (hmark : '=' ∉ n)
      (hread : read? Preview.card.inputs args = some b) (hb : b.lookup n = none) (w : Text) :
      ¬Gives args n w := by
    rw [← lookup_eq_some_iff_gives Preview.card.inputs_plain hmark List.not_mem_nil hread, hb]
    simp
  have hfree := hnot "description".toList (by decide)
    (show read? Preview.card.inputs ["--title", "N", "--description-file", "d"] =
      some [("title".toList, "N".toList), ("description-file".toList, "d".toList)] by
        decide) (by decide)
  have hfree' := hnot "description-file".toList (by decide)
    (show read? Preview.card.inputs ["--description", "x"] =
      some [("description".toList, "x".toList)] by decide) (by decide)
  have hassign : assign "description" s.uniformLines = "--description=-a=b\n| c\n".toList := by
    decide
  obtain ⟨hsame, -⟩ := descriptions_agree .card files ["w"] unset
  obtain ⟨-, -, title, path, hx, hy⟩ := hsame ["--title", "N"] [] ["--description-file", "d"]
    [assign "description" s.uniformLines] "d" s (by decide) (.spaced rfl) .assigned rfl rfl hp
    (.inl ⟨⟨_, rfl⟩, hfree⟩)
  rw [hassign] at hy
  obtain ⟨-, hboth, -⟩ := descriptions_agree .card files ["w"] fromFile
  refine ⟨hx.trans hy.symm, (hboth ["--description", "x"] "description" ⟨_, rfl⟩).mpr
    ⟨rfl, ⟨"missing", .inr ⟨hfree', by decide⟩⟩, "x", by decide, .inl ?_⟩⟩
  exact ⟨_, .spaced rfl, [], [], rfl⟩

end Bulletin.Command
