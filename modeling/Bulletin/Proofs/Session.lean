import Bulletin.Session
import Bulletin.Proofs.Html.Frame
import Bulletin.Proofs.Message.Load
import Mathlib.Data.List.Induction

/-! What a session does to its files. A step reads, or it writes one document to the place its
output leads to. A step that fails before the file is opened may leave directories behind, and
nothing else; after that only a document that cannot be encoded makes it fail, which leaves the file
empty. So whatever a session does, a regular file holds what it held at first, a document that a
step of the session wrote, or nothing where such a document could not be encoded. -/

namespace Bulletin

open Files (AddsDirectories KeepsDirectories Writes Stands)

namespace Message.Draft

theorem load_eq_ok {fs : Files} {here : Place} {path : Path} {d : Draft}
    (h : load fs here path = .ok d) : Message.load fs here path = .ok d.shown := by
  obtain ⟨shown, hshown, h⟩ := bind_eq_ok.mp h
  obtain ⟨twin, -, h⟩ := bind_eq_ok.mp h
  obtain ⟨named, -, h⟩ := bind_eq_ok.mp h
  obtain rfl := pure_eq_ok.mp h
  exact hshown

theorem exists_document {d : Draft} {bytes : ByteArray} (h : d.bytes? = some bytes)
    (hd : d.Encodable) : ∃ t, d.shown.document? = some t ∧ bytes = Encoding.encode t := by
  obtain ⟨t, ht, rfl⟩ := Option.map_eq_some_iff.mp h
  exact ⟨t, ht, if_pos hd⟩

theorem eq_empty_of_bytes? {d : Draft} {bytes : ByteArray} (h : d.bytes? = some bytes)
    (hd : ¬d.Encodable) : bytes = .empty := by
  obtain ⟨t, -, rfl⟩ := Option.map_eq_some_iff.mp h
  exact if_neg hd

theorem encodable_ofMessage (m : Message) : (ofMessage m).Encodable := rfl

theorem save_eq {d : Draft} {fs made written : Files} {here : Place} {bytes : ByteArray}
    (hname : d.shown.output = d.named.output) (houtput : d.shown.output = d.twin.output)
    (hmade : fs.makeDirectories here d.shown.output.parent = (made, .ok ()))
    (hbytes : d.bytes? = some bytes) (hwrite : made.write here d.shown.output bytes = .ok written) :
    d.save fs here = (written, if d.Encodable then .ok () else .error .notEncodable) := by
  unfold save
  dsimp only
  rw [if_neg (not_not_intro hname), if_neg (not_not_intro (congrArg Path.parent houtput)), hmade]
  simp only [hbytes, if_neg (not_not_intro houtput), hwrite]

/-- Saving fails before it touches a file, or the file is written where the output leads. -/
theorem save_cases (d : Draft) (fs : Files) (here : Place) :
    (∃ fs' e, d.save fs here = (fs', .error e) ∧ AddsDirectories fs fs' ∧
      (e = .notEncodable → d.shown.output ≠ d.twin.output)) ∨
    ∃ fs' place bytes,
      d.save fs here = (fs', if d.Encodable then .ok () else .error .notEncodable) ∧
      d.bytes? = some bytes ∧ fs'.locate here d.shown.output = .ok place ∧
      Writes fs fs' place bytes := by
  have hadds := Files.addsDirectories_makeDirectories fs here d.shown.output.parent
  unfold save
  dsimp only
  by_cases hname : d.shown.output = d.named.output
  case neg =>
    rw [if_pos hname]
    exact .inl ⟨fs, .byteName, rfl, .refl fs, nofun⟩
  rw [if_neg (not_not_intro hname)]
  by_cases hparent : d.shown.output.parent = d.twin.output.parent
  case neg =>
    rw [if_pos hparent]
    exact .inl ⟨fs, .notEncodable, rfl, .refl fs, fun _ h => hparent (by rw [h])⟩
  rw [if_neg (not_not_intro hparent)]
  cases hmade : fs.makeDirectories here d.shown.output.parent with
  | mk made result =>
    rw [hmade] at hadds
    cases result with
    | error e => exact .inl ⟨made, .file e, rfl, hadds, nofun⟩
    | ok =>
      cases hbytes : d.bytes? with
      | none => exact .inl ⟨made, .longReference, rfl, hadds, nofun⟩
      | some bytes =>
        dsimp only
        by_cases houtput : d.shown.output = d.twin.output
        case neg =>
          rw [if_pos houtput]
          exact .inl ⟨made, .notEncodable, rfl, hadds, fun _ => houtput⟩
        rw [if_neg (not_not_intro houtput)]
        cases hwrite : made.write here d.shown.output bytes with
        | error e => exact .inl ⟨made, .file e, rfl, hadds, nofun⟩
        | ok written =>
          obtain ⟨place, hlocate, hwrites⟩ := Files.writes_of_write hwrite
          exact .inr ⟨written, place, bytes, rfl, rfl, hlocate, hadds.writes hwrites⟩

end Message.Draft

/-- A build fails before it touches a file, or it writes the document of the message it loaded. -/
theorem Command.runBuild_cases (fs : Files) (here : Place) (config : Path) (output : Option Path) :
    (∃ fs' e, runBuild fs here config output = (fs', .error e) ∧ AddsDirectories fs fs' ∧
      (e = .save .notEncodable → ∃ d, Message.Draft.load fs here config = .ok d ∧
        (d.redirect output).shown.output ≠ (d.redirect output).twin.output)) ∨
    ∃ fs' d place bytes, Message.Draft.load fs here config = .ok d ∧
      runBuild fs here config output = (fs', if (d.redirect output).Encodable
        then (report fs here (d.redirect output).shown.output).mapError .file
        else .error (.save .notEncodable)) ∧
      (d.redirect output).bytes? = some bytes ∧
      fs'.locate here (d.redirect output).shown.output = .ok place ∧ Writes fs fs' place bytes := by
  unfold runBuild
  cases hload : Message.Draft.load fs here config with
  | error e => exact .inl ⟨fs, .load e, rfl, .refl fs, nofun⟩
  | ok d =>
    dsimp only
    rcases (d.redirect output).save_cases fs here with
      ⟨fs', e, hsave, hadds, houtput⟩ | ⟨fs', place, bytes, hsave, hbytes, hlocate, hwrites⟩
    · rw [hsave]
      exact .inl ⟨fs', .save e, rfl, hadds, fun he => ⟨d, rfl, houtput (Failure.save.inj he)⟩⟩
    · refine .inr ⟨fs', d, place, bytes, rfl, ?_, hbytes, hlocate, hwrites⟩
      rw [hsave]
      by_cases hd : (d.redirect output).Encodable
      · simp only [if_pos hd]
      · simp only [if_neg hd]

theorem Command.normal_of_build {args : List Text} {environment : Text → Option Text}
    {config output : Path}
    (h : ofArguments? args environment = some (.build config (some output))) : output.Normal := by
  unfold ofArguments? at h
  split at h
  case h_1 => simp at h
  case h_2 name rest =>
    split_ifs at h
    · obtain ⟨b, -, h⟩ := Option.bind_eq_some_iff.mp h
      simp only [Option.some.injEq, build.injEq, Option.map_eq_some_iff] at h
      obtain ⟨-, t, -, rfl⟩ := h
      exact Path.normal_ofText t
    · obtain ⟨b, -, h⟩ := Option.bind_eq_some_iff.mp h
      obtain ⟨path, -, h⟩ := Option.bind_eq_some_iff.mp h
      cases h
    · obtain ⟨b, -, h⟩ := Option.bind_eq_some_iff.mp h
      cases h

/-- The path that is reported for a place, joined to the current directory, leads to the place. -/
theorem Files.follow_display {fs : Files} {here place : Place} {p : Path} (h : fs.Stands here)
    (hp : p.Normal) (hl : fs.locate here p = .ok place) :
    fs.follow [] (Path.join ⟨.slash, here.reverse⟩
      (.ofText (p.display ⟨.slash, here.reverse⟩))).parts = .ok place := by
  have hf := follow_of_locate hl
  rw [Path.join_display _ hp, Path.join]
  split
  case isTrue habs => rwa [if_pos habs] at hf
  case isFalse habs =>
    rw [if_neg habs] at hf
    rw [follow_append, h]
    exact hf

namespace Session

/-! ### Steps -/

inductive Step.Saves : Step → Prop
  | save : Saves .save
  | build {args environment config output}
      (h : Command.ofArguments? args environment = some (.build config output)) :
      Saves (.command args environment)

/-- The step is to write the document of a message to its output: of the message at hand, or of the
message a build loads, whose output is the one that the build is given, if it is given one. -/
inductive Target (here : Place) (s : Session) : Step → Message.Draft → Prop
  | save {d} (h : s.current = some d) : Target here s .save d
  | build {args environment config output d}
      (h : Command.ofArguments? args environment = some (.build config output))
      (hload : Message.Draft.load s.files here config = .ok d) :
      Target here s (.command args environment) (d.redirect output)

theorem Target.saves {here : Place} {s : Session} {x : Step} {d : Message.Draft}
    (h : Target here s x d) : x.Saves := by
  cases h with
  | save h => exact .save
  | build h hload => exact .build h

theorem Target.of_build {here : Place} {s : Session} {args : List Text}
    {environment : Text → Option Text} {config : Path} {given : Option Path} {d : Message.Draft}
    (h : Target here s (.command args environment) d)
    (hc : Command.ofArguments? args environment = some (.build config given)) :
    ∃ d', Message.Draft.load s.files here config = .ok d' ∧ d = d'.redirect given := by
  cases h with
  | @build _ _ _ _ d' hc' hload =>
    rw [hc] at hc'
    obtain ⟨rfl, rfl⟩ := Command.build.inj (Option.some.inj hc')
    exact ⟨d', hload, rfl⟩

inductive Fault.NotEncodable : Fault → Prop
  | save : NotEncodable (.save .notEncodable)
  | build : NotEncodable (.command (.save .notEncodable))

/-- The output of the message names a file by bytes that are no text. -/
inductive Fault.ByteName : Fault → Prop
  | save : ByteName (.save .byteName)
  | build : ByteName (.command (.save .byteName))

/-- No step of a run comes to an output that names a file by bytes. -/
def NamesTexts (here : Place) (s : Session) (xs : List Step) : Prop :=
  ∀ ys x zs e, xs = ys ++ x :: zs → (step here (run here s ys) x).2 = .error e → ¬e.ByteName

/-- How a step ends that has written a file. -/
inductive Ends (here : Place) (s : Session) (d : Message.Draft) : Step → Except Fault Answer → Prop
  | saved (hd : d.Encodable) : Ends here s d .save (.ok (.saved d.shown.output))
  | printed {args environment line} (hd : d.Encodable) (hnormal : d.shown.output.Normal)
    (hline : Command.report s.files here d.shown.output = .ok line) :
    Ends here s d (.command args environment) (.ok (.printed line))
  /-- The current directory is gone. -/
  | lost {args environment e} (hd : d.Encodable)
    (hlost : Command.report s.files here d.shown.output = .error e) :
    Ends here s d (.command args environment) (.error (.command (.file e)))
  | notEncodable {x e} (hd : ¬d.Encodable) (he : e.NotEncodable) : Ends here s d x (.error e)

inductive Effect (here : Place) (s : Session) (x : Step) (s' : Session) :
    Except Fault Answer → Prop
  | reads {result} (hx : ¬ x.Saves) (hfiles : s'.files = s.files) : Effect here s x s' result
  | fails {e} (hx : x.Saves) (h : AddsDirectories s.files s'.files)
      (he : e.NotEncodable → ∃ d, Target here s x d ∧ d.shown.output ≠ d.twin.output) :
      Effect here s x s' (.error e)
  | writes {d place bytes result} (htarget : Target here s x d) (hbytes : d.bytes? = some bytes)
      (hlocate : s'.files.locate here d.shown.output = .ok place)
      (hwrites : Writes s.files s'.files place bytes) (hends : Ends here s d x result) :
      Effect here s x s' result

theorem effect_save (here : Place) (s : Session) :
    Effect here s .save (step here s .save).1 (step here s .save).2 := by
  cases hm : s.current with
  | none =>
    simp only [step, hm]
    exact .fails .save (.refl _) nofun
  | some d =>
    rcases d.save_cases s.files here with
      ⟨files, e, hsave, hadds, houtput⟩ | ⟨files, place, bytes, hsave, hbytes, hlocate, hwrites⟩
    · simp only [step, hm, hsave]
      refine .fails .save hadds fun he => ⟨d, .save hm, ?_⟩
      cases he with
      | save => exact houtput rfl
    · by_cases hd : d.Encodable
      · simp only [step, hm, hsave, if_pos hd]
        exact .writes (.save hm) hbytes hlocate hwrites (.saved hd)
      · simp only [step, hm, hsave, if_neg hd]
        exact .writes (.save hm) hbytes hlocate hwrites (.notEncodable hd .save)

theorem effect_command (here : Place) (s : Session) (args : List Text)
    (environment : Text → Option Text) :
    Effect here s (.command args environment) (step here s (.command args environment)).1
      (step here s (.command args environment)).2 := by
  cases hc : Command.ofArguments? args environment with
  | none =>
    refine .reads ?_ (by simp only [step, Command.runArguments, hc])
    rintro (_ | ⟨hc'⟩)
    simp [hc'] at hc
  | some c =>
    by_cases hbuild : ∃ config output, c = .build config output
    · obtain ⟨config, output, rfl⟩ := hbuild
      rcases Command.runBuild_cases s.files here config output with
        ⟨files, e, hrun, hadds, houtput⟩ |
        ⟨files, d, place, bytes, hload, hrun, hbytes, hlocate, hwrites⟩
      · simp only [step, Command.runArguments, hc, Command.run, hrun]
        refine .fails (.build hc) hadds fun he => ?_
        cases he with
        | build =>
          obtain ⟨d, hload, houtput⟩ := houtput rfl
          exact ⟨_, .build hc hload, houtput⟩
      · have hnormal : (d.redirect output).shown.output.Normal := by
          cases output with
          | none => exact Message.normal_output_of_load (Message.Draft.load_eq_ok hload)
          | some p => exact Command.normal_of_build hc
        simp only [step, Command.runArguments, hc, Command.run, hrun]
        by_cases hd : (d.redirect output).Encodable
        · simp only [if_pos hd]
          cases hreport : Command.report s.files here (d.redirect output).shown.output with
          | ok line =>
            exact .writes (.build hc hload) hbytes hlocate hwrites (.printed hd hnormal hreport)
          | error e => exact .writes (.build hc hload) hbytes hlocate hwrites (.lost hd hreport)
        · simp only [if_neg hd]
          exact .writes (.build hc hload) hbytes hlocate hwrites (.notEncodable hd .build)
    · have hfiles : (Command.run s.files here c).1 = s.files := by
        cases c with
        | build config output => exact absurd ⟨config, output, rfl⟩ hbuild
        | body path title description file => rfl
        | card title description file => rfl
      refine .reads ?_ ?_
      · rintro (_ | ⟨hc'⟩)
        exact hbuild ⟨_, _, Option.some.inj (hc.symm.trans hc')⟩
      · simp only [step, Command.runArguments, hc]
        split <;> simp_all

theorem effect_step (here : Place) (s : Session) (x : Step) :
    Effect here s x (step here s x).1 (step here s x).2 := by
  cases x with
  | command args environment => exact effect_command here s args environment
  | save => exact effect_save here s
  | load | change =>
    refine .reads nofun ?_
    simp only [step]
    split <;> rfl
  | render =>
    refine .reads nofun ?_
    simp only [step]
    split
    · rfl
    · split <;> rfl

variable {here : Place} {s s' : Session} {x : Step} {result : Except Fault Answer}

theorem Effect.keepsDirectories (h : Effect here s x s' result) :
    KeepsDirectories s.files s'.files := by
  cases h with
  | reads hx hfiles => exact fun place hp => hfiles ▸ hp
  | fails hx h => exact h.keepsDirectories
  | writes htarget hbytes hlocate hwrites hends => exact hwrites.keepsDirectories

theorem Effect.content? (h : Effect here s x s' result) (place : Place) :
    s'.files.content? place = s.files.content? place ∨
    ∃ d bytes, Target here s x d ∧ d.bytes? = some bytes ∧
      s'.files.locate here d.shown.output = .ok place ∧ s'.files.content? place = some bytes := by
  cases h with
  | reads hx hfiles => exact .inl (by rw [hfiles])
  | fails hx h => exact .inl (h.content? place)
  | @writes d written bytes _ htarget hbytes hlocate hwrites hends =>
    by_cases hp : place = written
    · subst hp
      exact .inr ⟨d, bytes, htarget, hbytes, hlocate, hwrites.written⟩
    · exact .inl (hwrites.other place hp)

/-- The step leaves the bytes in the file that the output of its message leads to, and every other
regular file as it was. -/
structure Leaves (here : Place) (s : Session) (x : Step) (s' : Session) (d : Message.Draft)
    (place : Place) (bytes : ByteArray) : Prop where
  target : Target here s x d
  locate : s'.files.locate here d.shown.output = .ok place
  content : s'.files.content? place = some bytes
  other : ∀ q, q ≠ place → s'.files.content? q = s.files.content? q

/-- What is to be said of a step that takes the session from `s` to `s'` and gives `result`. No tree
has a file that is named by bytes, so nothing is said of a step that fails for such a name. -/
structure Accounted (here : Place) (s : Session) (x : Step) (s' : Session)
    (result : Except Fault Answer) : Prop where
  /-- A step that is no save and no build leaves the files as they are. -/
  reads : ¬ x.Saves → s'.files = s.files
  /-- A save or build that succeeds leaves the document in the file its output leads to. A build prints
  a path that leads to this file, too, when it is joined to the current directory, as long as there is
  one. -/
  saves : x.Saves → ∀ a, result = .ok a → ∃ d t place, d.Encodable ∧ d.shown.document? = some t ∧
    Leaves here s x s' d place (Encoding.encode t) ∧
    ((x = .save ∧ a = .saved d.shown.output) ∨
      ∃ shown, a = .printed ("wrote ".toList ++ shown ++ ['\n']) ∧ (s.files.Stands here →
        s'.files.follow [] (Path.join ⟨.slash, here.reverse⟩ (.ofText shown)).parts = .ok place))
  /-- A step that fails prints nothing. -/
  silent : ∀ e, result = .error e → ¬e.ByteName → printed result = []
  /-- A step that fails changes no regular file, if the document can be encoded. But where the current
  directory is gone, a build may fail when it has written the document. -/
  fails : ∀ e, result = .error e → ¬e.ByteName → ¬e.NotEncodable →
    (∀ q, s'.files.content? q = s.files.content? q) ∨
    s.files.hasDirectory here = false ∧ ∃ d t place, d.shown.document? = some t ∧
      Leaves here s x s' d place (Encoding.encode t)
  /-- A document that cannot be encoded leaves its file empty. An output that cannot be encoded is
  noticed before, and no regular file changes. -/
  empties : x.Saves → ∀ e, result = .error e → e.NotEncodable → ∃ d, Target here s x d ∧
    (d.shown.output ≠ d.twin.output ∧ (∀ q, s'.files.content? q = s.files.content? q) ∨
      ¬d.Encodable ∧ ∃ place, Leaves here s x s' d place .empty)

theorem hasDirectory_of_report {fs : Files} {p : Path} {e : FileError}
    (h : Command.report fs here p = .error e) : fs.hasDirectory here = false := by
  unfold Command.report at h
  split at h
  · simp_all
  · cases h

theorem line_of_report {fs : Files} {p : Path} {line : Text}
    (h : Command.report fs here p = .ok line) :
    line = "wrote ".toList ++ p.display ⟨.slash, here.reverse⟩ ++ ['\n'] := by
  unfold Command.report at h
  split at h
  · cases h
  · exact (Except.ok.inj h).symm

theorem accounted_of_writes {d : Message.Draft} {place : Place} {bytes : ByteArray}
    (htarget : Target here s x d) (hbytes : d.bytes? = some bytes)
    (hlocate : s'.files.locate here d.shown.output = .ok place)
    (hwrites : Writes s.files s'.files place bytes) (hends : Ends here s d x result) :
    Accounted here s x s' result := by
  have hleaves : Leaves here s x s' d place bytes :=
    ⟨htarget, hlocate, hwrites.written, hwrites.other⟩
  have hdocument (hd : d.Encodable) : ∃ t, d.shown.document? = some t ∧
      Leaves here s x s' d place (Encoding.encode t) := by
    obtain ⟨t, ht, rfl⟩ := Message.Draft.exists_document hbytes hd
    exact ⟨t, ht, hleaves⟩
  have hreads : ¬x.Saves → s'.files = s.files := fun h => absurd htarget.saves h
  cases hends with
  | saved hd =>
    obtain ⟨t, ht, h⟩ := hdocument hd
    refine ⟨hreads, fun _ a ha => ?_, fun _ h => (nomatch h), fun _ h => (nomatch h),
      fun _ _ h => (nomatch h)⟩
    obtain rfl := Except.ok.inj ha
    exact ⟨d, t, place, hd, ht, h, .inl ⟨rfl, rfl⟩⟩
  | @printed _ _ line hd hnormal hline =>
    obtain ⟨t, ht, h⟩ := hdocument hd
    refine ⟨hreads, fun _ a ha => ?_, fun _ h => (nomatch h), fun _ h => (nomatch h),
      fun _ _ h => (nomatch h)⟩
    obtain rfl := Except.ok.inj ha
    obtain rfl := line_of_report hline
    exact ⟨d, t, place, hd, ht, h, .inr ⟨_, rfl, fun hstands =>
      Files.follow_display (hwrites.keepsDirectories.stands hstands) hnormal hlocate⟩⟩
  | lost hd hlost =>
    obtain ⟨t, ht, h⟩ := hdocument hd
    refine ⟨hreads, fun _ _ h => (nomatch h), fun _ _ _ => rfl, fun _ _ _ _ => ?_,
      fun _ e he hne => ?_⟩
    · exact .inr ⟨hasDirectory_of_report hlost, d, t, place, ht, h⟩
    · cases he
      cases hne
  | notEncodable hd hne =>
    refine ⟨hreads, fun _ _ h => (nomatch h), fun _ _ _ => rfl, fun e he _ hne' => ?_,
      fun _ _ _ _ => ?_⟩
    · cases he
      exact absurd hne hne'
    · rw [Message.Draft.eq_empty_of_bytes? hbytes hd] at hleaves
      exact ⟨d, htarget, .inr ⟨hd, place, hleaves⟩⟩

theorem Effect.accounted (h : Effect here s x s' result) : Accounted here s x s' result := by
  cases h with
  | reads hx hfiles =>
    refine ⟨fun _ => hfiles, fun hsaves => absurd hsaves hx, ?_, fun e he _ _ => ?_,
      fun hsaves => absurd hsaves hx⟩
    · rintro e rfl -
      rfl
    · exact .inl fun q => by rw [hfiles]
  | fails hx hadds houtput =>
    refine ⟨fun h => absurd hx h, fun _ _ h => (nomatch h), fun _ _ _ => rfl,
      fun _ _ _ _ => .inl fun q => hadds.content? q, fun _ e he hne => ?_⟩
    cases he
    obtain ⟨d, htarget, houtput⟩ := houtput hne
    exact ⟨d, htarget, .inl ⟨houtput, fun q => hadds.content? q⟩⟩
  | writes htarget hbytes hlocate hwrites hends =>
    exact accounted_of_writes htarget hbytes hlocate hwrites hends

/-! ### Runs -/

theorem stands_run (xs : List Step) (h : s.files.Stands here) :
    (run here s xs).files.Stands here := by
  induction xs using List.reverseRecOn with
  | nil => exact h
  | append_singleton xs x ih =>
    rw [run_concat]
    exact (effect_step here (run here s xs) x).keepsDirectories.stands ih

/-- After a run a regular file holds what it held at first, or what a step of the run left there. -/
theorem content?_run (here : Place) (s : Session) (xs : List Step) (place : Place) :
    (run here s xs).files.content? place = s.files.content? place ∨
    ∃ ys x zs d bytes, xs = ys ++ x :: zs ∧ Target here (run here s ys) x d ∧
      d.bytes? = some bytes ∧
      (run here s (ys ++ [x])).files.locate here d.shown.output = .ok place ∧
      (run here s xs).files.content? place = some bytes := by
  induction xs using List.reverseRecOn with
  | nil => exact .inl rfl
  | append_singleton xs x ih =>
    have heffect := effect_step here (run here s xs) x
    rcases heffect.content? place with hsame | ⟨d, bytes, htarget, hbytes, hlocate, hcontent⟩
    · rw [run_concat, hsame]
      rcases ih with ih | ⟨ys, y, zs, d, bytes, rfl, htarget, hbytes, hlocate, hcontent⟩
      · exact .inl ih
      · exact .inr ⟨ys, y, zs ++ [x], d, bytes, by simp, htarget, hbytes, hlocate, hcontent⟩
    · rw [run_concat]
      exact .inr ⟨xs, x, [], d, bytes, rfl, htarget, hbytes, by rwa [run_concat], hcontent⟩

theorem step_build {args : List Text} {environment : Text → Option Text} {config : Path}
    {output : Option Path} {d : Message.Draft} {saved : Files}
    {r : Except Message.SaveError Unit}
    (hc : Command.ofArguments? args environment = some (.build config output))
    (hload : Message.Draft.load s.files here config = .ok d)
    (hsave : (d.redirect output).save s.files here = (saved, r)) :
    step here s (.command args environment) = ({ s with files := saved },
      match r with
      | .error e => .error (.command (.save e))
      | .ok () => match Command.report s.files here (d.redirect output).shown.output with
        | .error e => .error (.command (.file e))
        | .ok line => .ok (.printed line)) := by
  simp only [step, Command.runArguments, hc, Command.run, Command.runBuild, hload, hsave]
  cases r with
  | error e => rfl
  | ok =>
    dsimp only
    cases Command.report s.files here (d.redirect output).shown.output <;> rfl

end Session
end Bulletin
