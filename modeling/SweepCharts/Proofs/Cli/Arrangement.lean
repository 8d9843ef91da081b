import Mathlib.Data.List.Nodup
import Mathlib.Data.List.Perm.Basic
import SweepCharts.Proofs.Cli.Written

set_option autoImplicit false

/-! # Words in any arrangement

A command line is read word by word. What was read of the words of given arguments is a part of
these arguments (`ParseState.reading`): the options and files that the words were for, and defaults
otherwise. So the order of the words makes no difference, but for that of the files.

* `ParseState.step_word`: one word adds what it says (`ParseState.run_words`: so do several).
* `Args.givenBy_optionWords`: the words give all options, also if some defaults are left out.
* `Args.parse_arranged`: the statement for command lines.
-/

namespace SweepCharts

/-! ## Part of the arguments -/

namespace Args

/-- These options and files of the arguments, and defaults for what remains. -/
def part (args : Args) (settings : List Setting) (switches : List Switch) (files : List String) :
    Args where
  files := files
  dataDir := if .dataDir ∈ settings then args.dataDir else ({} : Args).dataDir
  outputDir := if .outputDir ∈ settings then args.outputDir else ({} : Args).outputDir
  combined := decide (.combined ∈ switches)
  light := decide (.light ∈ switches)
  width := if .width ∈ settings then args.width else ({} : Args).width
  height := if .height ∈ settings then args.height else ({} : Args).height
  openCharts := decide (.openCharts ∈ switches)
  dumpJson := decide (.dumpJson ∈ switches)
  noSummary := decide (.noSummary ∈ switches)
  sliceSweep := if .sliceSweep ∈ settings then args.sliceSweep else ({} : Args).sliceSweep

variable {args : Args} {settings : List Setting} {switches : List Switch} {files : List String}

/-- **The value of one option more.** -/
theorem Writable.set_part (h : args.Writable) {s : Setting} {value : String}
    (hvalue : args.value? s = some value) :
    (args.part settings switches files).set s value =
      .ok (args.part (s :: settings) switches files) := by
  cases s with
  | dataDir =>
    obtain rfl := Option.some.inj hvalue
    show (readPath args.dataDir).map _ = _
    rw [readPath_of_ne h.dataDir]
    simp [Except.map, part]
  | outputDir =>
    obtain rfl := Option.some.inj hvalue
    show (readPath args.outputDir).map _ = _
    rw [readPath_of_ne h.outputDir]
    simp [Except.map, part]
  | width =>
    obtain rfl := Option.some.inj hvalue
    show (readSize (toString args.width)).map _ = _
    rw [readSize_toString h.width]
    simp [Except.map, part]
  | height =>
    obtain rfl := Option.some.inj hvalue
    show (readSize (toString args.height)).map _ = _
    rw [readSize_toString h.height]
    simp [Except.map, part]
  | sliceSweep =>
    have hpath : args.sliceSweep = some value := hvalue
    have hne : value ≠ "" := fun hempty => h.sliceSweep (hempty ▸ hpath)
    show (readPath value).map _ = _
    rw [readPath_of_ne hne]
    simp [Except.map, part, hpath]

theorem turnOn_part (s : Switch) :
    (args.part settings switches files).turnOn s =
      args.part settings (s :: switches) files := by
  cases s <;> simp [Args.turnOn, part]

/-- Options that have their defaults need not be among those that are read. -/
theorem Writable.part_eq (h : args.Writable)
    (hsettings : ∀ s, s ∉ settings → args.value? s = ({} : Args).value? s)
    (hswitches : ∀ s, s ∈ switches ↔ args.isOn s = true) :
    args.part settings switches args.files = args := by
  have hdataDir : .dataDir ∉ settings → ({} : Args).dataDir = args.dataDir :=
    fun hs => (Option.some.inj (hsettings .dataDir hs)).symm
  have houtputDir : .outputDir ∉ settings → ({} : Args).outputDir = args.outputDir :=
    fun hs => (Option.some.inj (hsettings .outputDir hs)).symm
  have hwidth : .width ∉ settings → ({} : Args).width = args.width :=
    fun hs => (eq_of_toString h.width (by decide) (Option.some.inj (hsettings .width hs))).symm
  have hheight : .height ∉ settings → ({} : Args).height = args.height :=
    fun hs => (eq_of_toString h.height (by decide) (Option.some.inj (hsettings .height hs))).symm
  have hsliceSweep : .sliceSweep ∉ settings → ({} : Args).sliceSweep = args.sliceSweep :=
    fun hs => (hsettings .sliceSweep hs).symm
  have hon (s : Switch) : decide (s ∈ switches) = args.isOn s := by
    rw [Bool.eq_iff_iff, decide_eq_true_iff]
    exact hswitches s
  unfold part
  rw [ite_eq_left_iff.2 hdataDir, ite_eq_left_iff.2 houtputDir, ite_eq_left_iff.2 hwidth,
    ite_eq_left_iff.2 hheight, ite_eq_left_iff.2 hsliceSweep]
  simp only [hon]
  rfl

end Args

/-! ## What words say -/

/-- The word is right about the arguments. -/
def Word.Holds (args : Args) : Word → Prop
  | setting s value => args.value? s = some value
  | switch s => args.isOn s = true
  | file _ => True

/-- The words give the options of the arguments, each of them once, but for some that have their
defaults. -/
structure Args.GivenBy (args : Args) (words : List Word) : Prop where
  holds : ∀ w ∈ words, w.Holds args
  settings : (Word.settings words).Nodup
  switches : (Word.switches words).Nodup
  omitted : ∀ s, s ∉ Word.settings words → args.value? s = ({} : Args).value? s
  isOn : ∀ s, s ∈ Word.switches words ↔ args.isOn s = true

namespace Args

variable {args : Args} {words more : List Word} {omitted : List Setting}

/-- **The order of words** is of no account. -/
theorem GivenBy.perm (h : args.GivenBy words) (hperm : more.Perm words) : args.GivenBy more := by
  have hsettings : (Word.settings more).Perm (Word.settings words) := hperm.filterMap _
  have hswitches : (Word.switches more).Perm (Word.switches words) := hperm.filterMap _
  refine ⟨fun w hw => h.holds w (hperm.mem_iff.1 hw), hsettings.nodup_iff.2 h.settings,
    hswitches.nodup_iff.2 h.switches, fun s hs => ?_, fun s => ?_⟩
  · exact h.omitted s fun hmem => hs (hsettings.mem_iff.2 hmem)
  · rw [hswitches.mem_iff, h.isOn]

/-- Files are no options. -/
theorem GivenBy.append_files (h : args.GivenBy words) (paths : List String) :
    args.GivenBy (words ++ paths.map .file) := by
  have hsettings : Word.settings (words ++ paths.map .file) = Word.settings words := by
    simp [Word.settings, List.filterMap_append, Word.setting?, Function.comp_def]
  have hswitches : Word.switches (words ++ paths.map .file) = Word.switches words := by
    simp [Word.switches, List.filterMap_append, Word.switch?, Function.comp_def]
  refine ⟨fun w hw => ?_, hsettings ▸ h.settings, hswitches ▸ h.switches, hsettings ▸ h.omitted,
    hswitches ▸ h.isOn⟩
  rcases List.mem_append.1 hw with hw | hw
  · exact h.holds w hw
  · obtain ⟨path, -, rfl⟩ := List.mem_map.1 hw
    trivial

theorem holds_of_mem_optionWords {w : Word} (hw : w ∈ args.optionWords omitted) :
    w.Holds args := by
  rcases List.mem_append.1 hw with hw | hw
  · obtain ⟨s, -, hs⟩ := List.mem_filterMap.1 hw
    obtain ⟨value, hvalue, rfl⟩ := Option.map_eq_some_iff.1 hs
    exact hvalue
  · obtain ⟨s, hs, rfl⟩ := List.mem_map.1 hw
    exact (List.mem_filter.1 hs).2

/-- Only one option may have no value at all, and has none by default. -/
theorem eq_sliceSweep_of_value?_eq_none {s : Setting} (h : args.value? s = none) :
    s = .sliceSweep := by
  cases s with
  | sliceSweep => rfl
  | _ => cases h

/-- Options that have their defaults can be left out. -/
theorem givenBy_optionWords (homitted : ∀ s ∈ omitted, args.value? s = ({} : Args).value? s) :
    args.GivenBy (args.optionWords omitted) where
  holds _ := holds_of_mem_optionWords
  settings := by
    rw [settings_optionWords]
    exact List.Nodup.filter _ (by decide)
  switches := by
    rw [switches_optionWords]
    exact List.Nodup.filter _ (by decide)
  omitted s hs := by
    rw [settings_optionWords] at hs
    by_cases hmem : s ∈ omitted
    · exact homitted s hmem
    · have hnone : args.value? s = none := by simpa [Setting.mem_all, hmem] using hs
      obtain rfl := eq_sliceSweep_of_value?_eq_none hnone
      exact hnone
  isOn s := by
    rw [switches_optionWords, List.mem_filter]
    exact ⟨fun h => h.2, fun h => ⟨Switch.mem_all s, h⟩⟩

end Args

/-! ## One word after the other -/

/-- Files that were read last and are not checked yet. -/
def Pending.ofFiles : List String → Pending
  | [] => .nothing
  | paths => .files paths

namespace ParseState

variable {s : ParseState} {paths : List String}

theorem settle_files (hs : s.pending = .ofFiles paths) (hpaths : ∀ path ∈ paths, path ≠ "") :
    s.settle =
      .ok { s with
        pending := .nothing
        args := { s.args with files := s.args.files ++ paths } } := by
  unfold settle
  rw [hs]
  cases paths with
  | nil =>
    rw [List.append_nil]
    rfl
  | cons path paths =>
    show (do
      let paths ← (path :: paths).mapM readPath
      Except.ok _) = _
    rw [mapM_readPath hpaths]
    rfl

theorem addFile_files (hs : s.pending = .ofFiles paths) (path : String) :
    s.addFile path = .ok { s with pending := .ofFiles (paths ++ [path]) } := by
  unfold addFile
  cases paths with
  | nil =>
    rw [hs]
    show s.settle.map _ = _
    rw [settle_files hs (by simp), List.append_nil]
    rfl
  | cons first rest =>
    rw [hs]
    rfl

/-- Some options and files of the arguments were read, and some more files at the end. -/
def reading (args : Args) (settings : List Setting) (switches : List Switch)
    (files pending : List String) : ParseState where
  args := args.part settings switches files
  settings := settings
  switches := switches
  pending := .ofFiles pending

variable {args : Args} {settings : List Setting} {switches : List Switch}
  {files pending : List String}

theorem settle_reading (hpending : ∀ path ∈ pending, path ≠ "") :
    (reading args settings switches files pending).settle =
      .ok (reading args settings switches (files ++ pending) []) := settle_files rfl hpending

/-- An option that was not read before. The files before it are checked. -/
theorem step_setting (h : args.Writable) {x : Setting} {value : String}
    (hvalue : args.value? x = some value) (hx : x ∉ settings)
    (hpending : ∀ path ∈ pending, path ≠ "") :
    (reading args settings switches files pending).step (Word.setting x value).text =
      .ok (reading args (x :: settings) switches (files ++ pending) []) := by
  unfold step
  rw [if_neg (by simp [reading]), Token.ofText_setting]
  dsimp only
  rw [Setting.ofName?_name]
  show (do (← (reading args settings switches files pending).settle).assign x value) = _
  rw [settle_reading hpending]
  show (if x ∈ settings then Except.error ArgError.repeated else _) = _
  rw [if_neg hx]
  show ((args.part settings switches (files ++ pending)).set x value).map _ = _
  rw [h.set_part hvalue]
  rfl

theorem step_switch {x : Switch} (hx : x ∉ switches) (hpending : ∀ path ∈ pending, path ≠ "") :
    (reading args settings switches files pending).step (Word.switch x).text =
      .ok (reading args settings (x :: switches) (files ++ pending) []) := by
  unfold step
  rw [if_neg (by simp [reading]), Token.ofText_switch]
  dsimp only
  rw [Switch.ofName?_name]
  show (do
    let s ← (reading args settings switches files pending).settle
    if x ∈ s.switches then Except.error ArgError.repeated
    else .ok { s with args := s.args.turnOn x, switches := x :: s.switches }) = _
  rw [settle_reading hpending]
  show (if x ∈ switches then Except.error ArgError.repeated else _) = _
  rw [if_neg hx]
  show Except.ok (ParseState.mk ((args.part settings switches (files ++ pending)).turnOn x)
    settings (x :: switches) .nothing false) = _
  rw [Args.turnOn_part]
  rfl

theorem step_file {path : String} (hpath : ¬ Dashed path) :
    (reading args settings switches files pending).step (Word.file path).text =
      .ok (reading args settings switches files (pending ++ [path])) := by
  unfold step
  rw [if_neg (by simp [reading]), Token.ofText_file hpath]
  show (reading args settings switches files pending).addPlain path = _
  have hplain : (reading args settings switches files pending).addPlain path =
      (reading args settings switches files pending).addFile path := by
    cases pending <;> rfl
  rw [hplain, addFile_files rfl]
  rfl

theorem run_cons_of_step {s next : ParseState} {text : String} (h : s.step text = .ok next)
    (rest : List String) : s.run (text :: rest) = next.run rest := by
  rw [run, h]
  rfl

/-- **One word** adds what it says. -/
theorem step_word (h : args.Writable) (files : List String) {w : Word} (hw : w.Holds args)
    (hsettings : (Word.settings [w] ++ settings).Nodup)
    (hswitches : (Word.switches [w] ++ switches).Nodup)
    (hfile : ∀ path ∈ Word.files [w], path ≠ "" ∧ ¬ Dashed path)
    (hpending : ∀ path ∈ pending, path ≠ "") :
    ∃ checked left, checked ++ left = files ++ pending ++ Word.files [w] ∧
      (∀ path ∈ left, path ≠ "") ∧
      (reading args settings switches files pending).step w.text =
        .ok (reading args (Word.settings [w] ++ settings) (Word.switches [w] ++ switches)
          checked left) := by
  cases w with
  | setting x value =>
    have hx : x ∉ settings := (List.nodup_cons.1 hsettings).1
    exact ⟨files ++ pending, [], rfl, by simp, step_setting h hw hx hpending⟩
  | switch x =>
    have hx : x ∉ switches := (List.nodup_cons.1 hswitches).1
    exact ⟨files ++ pending, [], rfl, by simp, step_switch hx hpending⟩
  | file path =>
    obtain ⟨hne, hdashed⟩ := hfile path (.head _)
    refine ⟨files, pending ++ [path], (List.append_assoc ..).symm, ?_, step_file hdashed⟩
    intro other hother
    rcases List.mem_append.1 hother with hother | hother
    · exact hpending other hother
    · rw [List.mem_singleton.1 hother]
      exact hne

/-- **Several words** add what they say, the files among them in their order, and more words may
follow. -/
theorem run_words (h : args.Writable) (files : List String) {words : List Word}
    (hwords : ∀ w ∈ words, w.Holds args)
    (hsettings : (Word.settings words.reverse ++ settings).Nodup)
    (hswitches : (Word.switches words.reverse ++ switches).Nodup)
    (hfiles : ∀ path ∈ Word.files words, path ≠ "" ∧ ¬ Dashed path)
    (hpending : ∀ path ∈ pending, path ≠ "") (rest : List String) :
    ∃ checked left, checked ++ left = files ++ pending ++ Word.files words ∧
      (∀ path ∈ left, path ≠ "") ∧
      (reading args settings switches files pending).run (words.map Word.text ++ rest) =
        (reading args (Word.settings words.reverse ++ settings)
          (Word.switches words.reverse ++ switches) checked left).run rest := by
  induction words generalizing settings switches files pending with
  | nil => exact ⟨files, pending, by simp [Word.files], hpending, rfl⟩
  | cons w words ih =>
    obtain ⟨hw, hwords⟩ := List.forall_mem_cons.1 hwords
    have hfirst : Word.files (w :: words) = Word.files [w] ++ Word.files words :=
      Word.files_append [w] words
    -- the state has the options that were read last in front
    have hlast : Word.settings (w :: words).reverse ++ settings =
        Word.settings words.reverse ++ (Word.settings [w] ++ settings) := by
      rw [List.reverse_cons, Word.settings_append, List.append_assoc]
    have hlast' : Word.switches (w :: words).reverse ++ switches =
        Word.switches words.reverse ++ (Word.switches [w] ++ switches) := by
      rw [List.reverse_cons, Word.switches_append, List.append_assoc]
    rw [hlast] at hsettings ⊢
    rw [hlast'] at hswitches ⊢
    rw [hfirst, List.forall_mem_append] at hfiles
    obtain ⟨checked, left, heq, hleft, hstep⟩ :=
      step_word h files hw hsettings.of_append_right hswitches.of_append_right hfiles.1 hpending
    obtain ⟨checked', left', heq', hleft', hrun⟩ :=
      ih checked hwords hsettings hswitches hfiles.2 hleft
    refine ⟨checked', left', ?_, hleft', ?_⟩
    · rw [heq', heq, hfirst, List.append_assoc]
    · rw [List.map_cons, List.cons_append, run_cons_of_step hstep, hrun]

theorem run_onlyFiles {s : ParseState} {paths : List String} (hs : s.pending = .ofFiles paths)
    (honly : s.onlyFiles = true) (more : List String) :
    s.run more = { s with pending := .ofFiles (paths ++ more) }.settle := by
  induction more generalizing s paths with
  | nil =>
    rw [List.append_nil, ← hs]
    rfl
  | cons path more ih =>
    have hstep : s.step path = .ok { s with pending := .ofFiles (paths ++ [path]) } := by
      rw [step, if_pos honly, addFile_files hs]
    have hrest := ih (s := { s with pending := .ofFiles (paths ++ [path]) }) rfl honly
    rw [List.append_assoc] at hrest
    rw [run_cons_of_step hstep]
    exact hrest

/-- **After the separator**, every token is a file. -/
theorem run_separated {more : List String} (hmore : ∀ path ∈ pending ++ more, path ≠ "") :
    (reading args settings switches files pending).run ("--" :: more) =
      .ok { reading args settings switches (files ++ (pending ++ more)) [] with
        onlyFiles := true } := by
  have hstep : (reading args settings switches files pending).step "--" =
      .ok { reading args settings switches files pending with onlyFiles := true } := rfl
  have hrun := run_onlyFiles
    (s := { reading args settings switches files pending with onlyFiles := true }) rfl rfl more
  rw [run_cons_of_step hstep, hrun, settle_files rfl hmore]
  rfl

end ParseState

/-! ## Command lines -/

namespace Args

variable {args : Args} {words : List Word}

/-- **The words that give the options** are read, and with them all of the arguments but the files.
More words may follow. -/
theorem GivenBy.run_words (hgiven : args.GivenBy words) (h : args.Writable)
    (hfiles : ∀ path ∈ Word.files words, path ≠ "" ∧ ¬ Dashed path) (rest : List String) :
    ∃ settings switches checked left,
      args.part settings switches args.files = args ∧
        checked ++ left = Word.files words ∧ (∀ path ∈ left, path ≠ "") ∧
        ParseState.run {} (words.map Word.text ++ rest) =
          (ParseState.reading args settings switches checked left).run rest := by
  have hreverse : args.GivenBy words.reverse := hgiven.perm words.reverse_perm
  have hpart := h.part_eq hreverse.omitted hreverse.isOn
  have hsettings := hreverse.settings
  have hswitches := hreverse.switches
  rw [← List.append_nil (Word.settings words.reverse)] at hpart hsettings
  rw [← List.append_nil (Word.switches words.reverse)] at hpart hswitches
  have hpending : ∀ path ∈ ([] : List String), path ≠ "" := by simp
  obtain ⟨checked, left, heq, hleft, hrun⟩ :=
    ParseState.run_words h [] hgiven.holds hsettings hswitches hfiles hpending rest
  exact ⟨_, _, checked, left, hpart, heq, hleft, hrun⟩

/-- Words that give the options, with the files among them in their order. -/
theorem GivenBy.parse (hgiven : args.GivenBy words) (h : args.Writable)
    (hfiles : Word.files words = args.files) (hdashed : ∀ path ∈ args.files, ¬ Dashed path) :
    Args.parse (words.map Word.text) = .ok args := by
  have hplain : ∀ path ∈ Word.files words, path ≠ "" ∧ ¬ Dashed path := by
    rw [hfiles]
    exact fun path hpath => ⟨h.files path hpath, hdashed path hpath⟩
  obtain ⟨settings, switches, checked, left, hpart, heq, hleft, hrun⟩ :=
    hgiven.run_words h hplain []
  rw [List.append_nil] at hrun
  unfold Args.parse
  rw [hrun]
  show (ParseState.settle _).map ParseState.args = _
  rw [ParseState.settle_reading hleft, heq, hfiles]
  exact congrArg Except.ok hpart

/-- Words that give the options, and the files after a separator. -/
theorem GivenBy.parse_separated (hgiven : args.GivenBy words) (h : args.Writable)
    (hfiles : Word.files words = []) :
    Args.parse (words.map Word.text ++ "--" :: args.files) = .ok args := by
  obtain ⟨settings, switches, checked, left, hpart, heq, -, hrun⟩ :=
    hgiven.run_words h (by simp [hfiles]) ("--" :: args.files)
  obtain ⟨rfl, rfl⟩ := List.append_eq_nil_iff.1 (heq.trans hfiles)
  unfold Args.parse
  rw [hrun, ParseState.run_separated h.files]
  exact congrArg Except.ok hpart

/-- **Every arrangement of the words of arguments reads back**, whatever the values of the options
are. The words of options go anywhere, and files stay in their order. An option that has its default
may be left out. With all options first and a separator, files may look like options. -/
theorem parse_arranged (args : Args) (h : args.Writable) (omitted : List Setting)
    (homitted : ∀ s ∈ omitted, args.value? s = ({} : Args).value? s) :
    ((∀ path ∈ args.files, ¬ Dashed path) →
      ∀ words : List Word, words.Perm (args.words omitted) → Word.files words = args.files →
        Args.parse (words.map Word.text) = .ok args) ∧
    ∀ options : List Word, options.Perm (args.optionWords omitted) →
      Args.parse (options.map Word.text ++ "--" :: args.files) = .ok args := by
  have hgiven : args.GivenBy (args.optionWords omitted) := givenBy_optionWords homitted
  refine ⟨fun hdashed words hperm hfiles => ?_, fun options hperm => ?_⟩
  · exact ((hgiven.append_files args.files).perm hperm).parse h hfiles hdashed
  · have hfiles : (Word.files options).Perm (Word.files (args.optionWords omitted)) :=
      hperm.filterMap _
    rw [files_optionWords] at hfiles
    exact (hgiven.perm hperm).parse_separated h hfiles.eq_nil

/-- Values that look like options, an option between two files, and files that look like options. -/
theorem parse_arranged_between_files :
    let args : Args :=
      { files := ["a.csv", "b=c.csv"], dataDir := "--combined", light := true, width := 640,
        sliceSweep := some "-x=y" }
    let dashed : Args := { args with files := ["-", "--light"] }
    Args.parse ["a.csv", "--slice-sweep=-x=y", "--light", "b=c.csv", "--width=640",
        "--data-dir=--combined"] = .ok args ∧
      Args.parse ["--light", "--height=1200", "--width=640", "--data-dir=--combined",
        "--output-dir=./charts", "--slice-sweep=-x=y", "--", "-", "--light"] = .ok dashed := by
  intro args dashed
  have hargs : args.Writable :=
    ⟨by decide, by decide, by decide, by decide, by decide, by decide⟩
  have hdashed : dashed.Writable :=
    ⟨by decide, by decide, by decide, by decide, by decide, by decide⟩
  refine ⟨?_, ?_⟩
  · exact (parse_arranged args hargs [.outputDir, .height] (by decide)).1 (by decide)
      [.file "a.csv", .setting .sliceSweep "-x=y", .switch .light, .file "b=c.csv",
        .setting .width "640", .setting .dataDir "--combined"] (by decide) (by decide)
  · exact (parse_arranged dashed hdashed [] (by decide)).2
      [.switch .light, .setting .height "1200", .setting .width "640",
        .setting .dataDir "--combined", .setting .outputDir "./charts",
        .setting .sliceSweep "-x=y"] (by decide)

end Args

end SweepCharts
