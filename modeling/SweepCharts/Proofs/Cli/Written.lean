import Mathlib.Data.List.TakeWhile
import SweepCharts.Cli.Parser
import SweepCharts.Proofs.Json.Numeral

set_option autoImplicit false

/-! # Arguments as words

A command line for given arguments: a word for each option, with the value attached, and a word for
each file. A word is an option or a file by its first characters only, so what the value of an
option contains makes no difference.

* `Token.ofText_setting`, `Token.ofText_switch`, `Token.ofText_file`: how a word looks to the parser.
* `readSize_toString`: a size is read back from its digits.
* `Args.words`: the words of arguments.
-/

namespace SweepCharts

/-! ## Names -/

namespace Setting

def name : Setting → String
  | dataDir => "data-dir"
  | outputDir => "output-dir"
  | width => "width"
  | height => "height"
  | sliceSweep => "slice-sweep"

def all : List Setting := [dataDir, outputDir, width, height, sliceSweep]

theorem mem_all (s : Setting) : s ∈ all := by cases s <;> decide

theorem ofName?_name (s : Setting) : CliOption.ofName? s.name = some (.setting s) := by
  cases s <;> rfl

theorem within_name (s : Setting) : Within (· ≠ '=') s.name := by cases s <;> decide

end Setting

namespace Switch

def name : Switch → String
  | combined => "combined"
  | light => "light"
  | openCharts => "open-charts"
  | dumpJson => "dump-json"
  | noSummary => "no-summary"

def all : List Switch := [combined, light, openCharts, dumpJson, noSummary]

theorem mem_all (s : Switch) : s ∈ all := by cases s <;> decide

theorem ofName?_name (s : Switch) : CliOption.ofName? s.name = some (.switch s) := by
  cases s <;> rfl

theorem name_toList_ne (s : Switch) : s.name.toList ≠ [] := by cases s <;> decide

theorem within_name (s : Switch) : Within (· ≠ '=') s.name := by cases s <;> decide

end Switch

/-! ## Words -/

/-- A token, by what it is for. -/
inductive Word where
  /-- An option with its value attached. -/
  | setting (s : Setting) (value : String)
  | switch (s : Switch)
  | file (path : String)
  deriving DecidableEq, Repr

namespace Word

def text : Word → String
  | setting s value => "--" ++ s.name ++ "=" ++ value
  | switch s => "--" ++ s.name
  | file path => path

def setting? : Word → Option Setting
  | setting s _ => some s
  | _ => none

def switch? : Word → Option Switch
  | switch s => some s
  | _ => none

def file? : Word → Option String
  | file path => some path
  | _ => none

/-- The files among words, in their order. -/
def files (words : List Word) : List String := words.filterMap file?

/-- The options with a value among words. -/
def settings (words : List Word) : List Setting := words.filterMap setting?

/-- The options without a value among words. -/
def switches (words : List Word) : List Switch := words.filterMap switch?

theorem files_append (words more : List Word) : files (words ++ more) = files words ++ files more :=
  List.filterMap_append

theorem settings_append (words more : List Word) :
    settings (words ++ more) = settings words ++ settings more := List.filterMap_append

theorem switches_append (words more : List Word) :
    switches (words ++ more) = switches words ++ switches more := List.filterMap_append

end Word

/-- The text looks like an option, or is the dash alone. -/
def Dashed (text : String) : Prop := text.toList.head? = some '-'

instance (text : String) : Decidable (Dashed text) :=
  inferInstanceAs (Decidable (text.toList.head? = some '-'))

namespace Token

theorem splitValue_of_within {name : String} (h : Within (· ≠ '=') name) :
    splitValue name.toList = (name, none) := by
  have hname : ∀ c ∈ name.toList, decide (c ≠ '=') = true := fun c hc => decide_eq_true (h c hc)
  unfold splitValue
  rw [List.takeWhile_eq_self_iff.2 hname, List.dropWhile_eq_nil_iff.2 hname, String.ofList_toList]

/-- The value begins after the first equals sign, whatever it contains. -/
theorem splitValue_attached {name : String} (h : Within (· ≠ '=') name) (value : String) :
    splitValue (name.toList ++ '=' :: value.toList) = (name, some value) := by
  have hname : ∀ c ∈ name.toList, decide (c ≠ '=') = true := fun c hc => decide_eq_true (h c hc)
  unfold splitValue
  rw [List.takeWhile_append_of_pos hname, List.dropWhile_append_of_pos hname]
  simp

theorem ofText_dashes {text : String} {rest : List Char} (h : text.toList = '-' :: '-' :: rest)
    (hrest : rest ≠ []) :
    ofText text = .long (splitValue rest).1 (splitValue rest).2 := by
  unfold ofText
  rw [h]
  cases rest with
  | nil => exact absurd rfl hrest
  | cons c rest => rfl

/-- An option with a value, which may contain dashes and equals signs. -/
theorem ofText_setting (s : Setting) (value : String) :
    ofText (Word.setting s value).text = .long s.name (some value) := by
  have htext : (Word.setting s value).text.toList =
      '-' :: '-' :: (s.name.toList ++ '=' :: value.toList) := by
    simp [Word.text, String.toList_append]
  rw [ofText_dashes htext (by simp), splitValue_attached s.within_name]

theorem ofText_switch (s : Switch) : ofText (Word.switch s).text = .long s.name none := by
  have htext : (Word.switch s).text.toList = '-' :: '-' :: s.name.toList := by
    simp [Word.text, String.toList_append]
  rw [ofText_dashes htext s.name_toList_ne, splitValue_of_within s.within_name]

theorem ofText_file {path : String} (h : ¬ Dashed path) :
    ofText (Word.file path).text = .plain := by
  unfold Dashed at h
  show ofText path = .plain
  unfold ofText
  split
  · simp_all
  · simp_all
  · simp_all
  · rfl

end Token

/-! ## Values -/

theorem readSize_toString {n : Nat} (h : n < pow2 64) : readSize (toString n) = .ok n := by
  have hdigits : ∀ c ∈ Nat.toDigits 10 n, c.isDigit = true :=
    forall_toDigits (P := fun c => c.isDigit = true) (fun _ hc => hc) n
  have hnumber :
      ((Nat.toDigits 10 n).isEmpty || !(Nat.toDigits 10 n).all Char.isDigit) = false := by
    simpa using hdigits
  have hread : readSize? (toString n) = some n := by
    unfold readSize?
    rw [toList_toString_nat]
    split
    · rename_i rest heq
      exact absurd (hdigits '+' (heq ▸ List.mem_cons_self ..)) (by decide)
    · dsimp only
      rw [hnumber]
      show (if natOfDigits (Nat.toDigits 10 n) < pow2 64 then
        some (natOfDigits (Nat.toDigits 10 n)) else none) = some n
      rw [Json.Numeral.natOfDigits_toDigits, if_pos h]
  rw [readSize, hread]

/-- Sizes that are written alike are equal. -/
theorem eq_of_toString {m n : Nat} (hm : m < pow2 64) (hn : n < pow2 64)
    (h : toString m = toString n) : m = n := by
  have hread := readSize_toString hm
  rw [h, readSize_toString hn] at hread
  exact (Except.ok.inj hread).symm

theorem readPath_of_ne {path : String} (h : path ≠ "") : readPath path = .ok path := by
  simp [readPath, h]

theorem mapM_readPath {paths : List String} (h : ∀ path ∈ paths, path ≠ "") :
    paths.mapM readPath = .ok paths := by
  induction paths with
  | nil => rfl
  | cons path paths ih =>
    obtain ⟨hpath, hpaths⟩ := List.forall_mem_cons.1 h
    rw [List.mapM_cons, readPath_of_ne hpath, ih hpaths]
    rfl

/-! ## The words of arguments -/

namespace Args

/-- The value of an option, as it is written. -/
def value? (args : Args) : Setting → Option String
  | .dataDir => some args.dataDir
  | .outputDir => some args.outputDir
  | .width => some (toString args.width)
  | .height => some (toString args.height)
  | .sliceSweep => args.sliceSweep

def isOn (args : Args) : Switch → Bool
  | .combined => args.combined
  | .light => args.light
  | .openCharts => args.openCharts
  | .dumpJson => args.dumpJson
  | .noSummary => args.noSummary

/-- A word for each option that has a value or is turned on, some options with a value left out. -/
def optionWords (args : Args) (omitted : List Setting) : List Word :=
  ((Setting.all.filter (· ∉ omitted)).filterMap fun s => (args.value? s).map (Word.setting s)) ++
    (Switch.all.filter args.isOn).map .switch

/-- The options with a value that have a word. -/
theorem settings_optionWords (args : Args) (omitted : List Setting) :
    Word.settings (args.optionWords omitted) =
      Setting.all.filter fun s => (args.value? s).isSome && decide (s ∉ omitted) := by
  have hvalue : (fun s => ((args.value? s).map (Word.setting s)).bind Word.setting?) =
      Option.guard fun s => (args.value? s).isSome := by
    funext s
    cases h : args.value? s <;> simp [Word.setting?, Option.guard, h]
  have hswitches :
      ((Switch.all.filter args.isOn).map Word.switch).filterMap Word.setting? = [] := by
    simp [Word.setting?]
  unfold optionWords Word.settings
  rw [List.filterMap_append, hswitches, List.append_nil, List.filterMap_filterMap, hvalue,
    List.filterMap_eq_filter, List.filter_filter]

/-- The options without a value that have a word. -/
theorem switches_optionWords (args : Args) (omitted : List Setting) :
    Word.switches (args.optionWords omitted) = Switch.all.filter args.isOn := by
  simp [optionWords, Word.switches, List.filterMap_append, List.filterMap_filterMap, Word.switch?,
    Option.bind_map, Function.comp_def]

theorem files_optionWords (args : Args) (omitted : List Setting) :
    Word.files (args.optionWords omitted) = [] := by
  simp [optionWords, Word.files, List.filterMap_append, List.filterMap_filterMap, Word.file?,
    Option.bind_map, Function.comp_def]

/-- A word for each option and for each file. -/
def words (args : Args) (omitted : List Setting) : List Word :=
  args.optionWords omitted ++ args.files.map .file

/-- No path is empty, and sizes are within 64 bits. -/
structure Writable (args : Args) : Prop where
  files : ∀ path ∈ args.files, path ≠ ""
  dataDir : args.dataDir ≠ ""
  outputDir : args.outputDir ≠ ""
  width : args.width < pow2 64
  height : args.height < pow2 64
  sliceSweep : args.sliceSweep ≠ some ""

end Args

end SweepCharts
